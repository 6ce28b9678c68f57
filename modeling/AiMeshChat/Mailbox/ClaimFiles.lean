import AiMeshChat.Mailbox.Reader

/-!
# Claim files and their names

A claim, its drafts and its lock are named after the message and the owner,
joined by a dash. Both may contain dashes, so the name does not determine the
two; but it determines the joined key, and a claim file always holds a message
and an owner that join to the key of its name (`IsClaim`). That is what makes
the lock that `recover_stale` takes, named after the content, the lock of the
file it has read.
-/

namespace AiMeshChat.Mailbox

open Lib

/-! ## Names -/

/-- What stands between `pre` and `suf` in the name. -/
def between (pre suf name : String) : String :=
  String.ofList ((name.toList.drop pre.length).take (name.length - pre.length - suf.length))

theorem between_append (pre key suf : String) : between pre suf (pre ++ key ++ suf) = key := by
  have hlen : (pre ++ key ++ suf).length - pre.length - suf.length = key.toList.length := by
    simp only [String.length_append, String.length_toList]
    omega
  have hdrop : (pre ++ key ++ suf).toList.drop pre.length = key.toList ++ suf.toList := by
    rw [String.toList_append, String.toList_append, List.append_assoc, ← String.length_toList,
      List.drop_left]
  rw [between, hlen, hdrop, List.take_left, String.ofList_toList]

theorem eq_of_globMatch {pre suf name : String} (h : globMatch pre suf name = true) :
    name = pre ++ between pre suf name ++ suf := by
  simp only [globMatch, startsWith, endsWith, Bool.and_eq_true, decide_eq_true_eq,
    List.isPrefixOf_iff_prefix, List.isSuffixOf_iff_suffix] at h
  obtain ⟨⟨⟨r, hr⟩, ⟨l, hl⟩⟩, hlen⟩ := h
  -- the prefix and the suffix do not overlap
  have hsuf : ∃ k, r = k ++ suf.toList := by
    refine ⟨r.take (r.length - suf.toList.length), ?_⟩
    have h1 : suf.toList <:+ r := by
      have hs : suf.toList <:+ name.toList := ⟨l, hl⟩
      have hr' : r <:+ name.toList := ⟨pre.toList, hr⟩
      refine List.suffix_of_suffix_length_le hs hr' ?_
      have := congrArg List.length hr
      simp only [List.length_append, String.length_toList] at this ⊢
      omega
    obtain ⟨k, hk⟩ := h1
    rw [← hk]
    simp
  obtain ⟨k, rfl⟩ := hsuf
  have hname : name = pre ++ String.ofList k ++ suf := by
    apply String.toList_inj.mp
    rw [← hr]
    simp [String.toList_append]
  rw [hname, between_append]

theorem not_startsWith_both {p q s : String} (hpq : startsWith p q = false)
    (hqp : startsWith q p = false) (hp : startsWith p s = true) (hq : startsWith q s = true) :
    False := by
  simp only [startsWith, List.isPrefixOf_iff_prefix, ← Bool.not_eq_true] at *
  rcases List.prefix_or_prefix_of_prefix hp hq with h | h
  · exact hpq h
  · exact hqp h

theorem claimName_inj {a b : String} (h : claimName a = claimName b) : a = b := by
  have := congrArg (between ".claim-" ".json") h
  rwa [claimName, claimName, between_append, between_append] at this

theorem tmpRenewName_inj {a b : String} (h : tmpRenewName a = tmpRenewName b) : a = b := by
  have := congrArg (between ".tmp-renew-" ".json") h
  rwa [tmpRenewName, tmpRenewName, between_append, between_append] at this

theorem append_dash_inj {a b x y : List Char} (hx : '-' ∉ x) (hy : '-' ∉ y)
    (h : a ++ '-' :: x = b ++ '-' :: y) : a = b := by
  have hcut (a x : List Char) (hx : '-' ∉ x) :
      (a ++ '-' :: x).reverse.dropWhile (· ≠ '-') = '-' :: a.reverse := by
    rw [List.reverse_append, List.reverse_cons, List.append_assoc,
      List.dropWhile_append_of_pos (fun c hc => ?_)]
    · simp
    · have : c ≠ '-' := fun e => hx (by rw [← e]; simpa using hc)
      simpa using this
  have := hcut a x hx
  rw [h, hcut b y hy] at this
  simpa using this.symm

theorem dash_not_mem_toString (n : ℕ) : '-' ∉ (toString n).toList := by
  intro h
  rw [Nat.toString_eq_ofList_toDigits, String.toList_ofList] at h
  have := Nat.isDigit_of_mem_toDigits (by decide) (by decide) h
  exact absurd this (by decide)

theorem tmpClaimName_eq (key : String) (n : ℕ) :
    tmpClaimName key n = ".tmp-claim-" ++ (key ++ "-" ++ toString n) ++ ".json" := by
  simp only [tmpClaimName, String.append_assoc]

theorem tmpClaimName_inj {a b : String} {n k : ℕ} (h : tmpClaimName a n = tmpClaimName b k) :
    a = b := by
  have h1 := congrArg (between ".tmp-claim-" ".json") h
  rw [tmpClaimName_eq, tmpClaimName_eq, between_append, between_append] at h1
  have h2 := congrArg String.toList h1
  simp only [String.toList_append, List.append_assoc] at h2
  exact String.toList_inj.mp
    (append_dash_inj (dash_not_mem_toString n) (dash_not_mem_toString k) h2)

theorem claimName_ne_tmpClaimName (a b : String) (n : ℕ) : claimName a ≠ tmpClaimName b n :=
  fun h => not_startsWith_both (p := ".claim-") (q := ".tmp-claim-") (by decide) (by decide)
    (startsWith_claimName a) (h ▸ startsWith_tmpClaimName b n)

theorem claimName_ne_tmpRenewName (a b : String) : claimName a ≠ tmpRenewName b :=
  fun h => not_startsWith_both (p := ".claim-") (q := ".tmp-renew-") (by decide) (by decide)
    (startsWith_claimName a) (h ▸ startsWith_tmpRenewName b)

theorem tmpClaimName_ne_tmpRenewName (a b : String) (n : ℕ) :
    tmpClaimName a n ≠ tmpRenewName b :=
  fun h => not_startsWith_both (p := ".tmp-claim-") (q := ".tmp-renew-") (by decide) (by decide)
    (startsWith_tmpClaimName a n) (h ▸ startsWith_tmpRenewName b)

theorem jsonName_stem_of_ne {name : String} (hj : endsWith ".json" name = true)
    (hne : name ≠ ".json") : jsonName (stem name) = name := by
  simp only [endsWith, List.isSuffixOf_iff_suffix] at hj
  obtain ⟨x, hx⟩ := hj
  have hrev : name.toList.reverse.dropWhile (· ≠ '.') = '.' :: x.reverse := by
    rw [← hx]
    simp [List.dropWhile]
  have hne : x.reverse ≠ [] := by
    intro h
    rw [List.reverse_eq_nil_iff.mp h] at hx
    exact hne (String.toList_inj.mp hx.symm)
  obtain ⟨c, r, hcr⟩ := List.exists_cons_of_ne_nil hne
  have hstem : stem name = String.ofList x := by
    rw [stem, hrev, hcr]
    simp only
    rw [← hcr, List.reverse_reverse]
  apply String.toList_inj.mp
  rw [jsonName, hstem, String.toList_append, String.toList_ofList, hx]

theorem jsonName_stem {name : String} (hj : endsWith ".json" name = true)
    (hd : dotted name = false) : jsonName (stem name) = name := by
  refine jsonName_stem_of_ne hj ?_
  rintro rfl
  exact absurd hd (by decide)

/-! ## Claims -/

/-- The content of the claim file with the key `key`. -/
def IsClaim (key : String) (j : Json) : Prop :=
  ∃ m o, key = claimKey m o ∧ dotted (jsonName m) = false ∧ j.isDict = true ∧
    j.get? "msg_id" = some (.str m) ∧ j.get? "owner" = some (.str o)

theorem isClaim_claimMeta {m o : String} (hm : dotted (jsonName m) = false) (now : ℕ) :
    IsClaim (claimKey m o) (claimMeta m o now) :=
  ⟨m, o, rfl, hm, rfl, rfl, rfl⟩

theorem IsClaim.renewed {key : String} {j : Json} (h : IsClaim key j) (v w : Json) :
    IsClaim key ((j.set "claimed_at" v).set "renewed_at" w) := by
  obtain ⟨m, o, hk, hm, hj, hmid, howner⟩ := h
  refine ⟨m, o, hk, hm, ?_, ?_, ?_⟩
  · rw [Json.isDict_set, Json.isDict_set, hj]
  · rw [Json.get?_set_ne _ _ (by decide), Json.get?_set_ne _ _ (by decide), hmid]
  · rw [Json.get?_set_ne _ _ (by decide), Json.get?_set_ne _ _ (by decide), howner]

theorem IsClaim.key_eq {key : String} {j : Json} (h : IsClaim key j) (name : String) :
    claimKey (claimMsgId j name) (claimOwner j) = key ∧
      dotted (jsonName (claimMsgId j name)) = false := by
  obtain ⟨m, o, rfl, hm, -, hmid, howner⟩ := h
  have hne : m ≠ "" := by
    rintro rfl
    exact absurd hm (by decide)
  have h1 : claimMsgId j name = m := by
    simp [claimMsgId, hmid, Json.truthy, hne, strOf]
  have h2 : claimOwner j = o := by simp [claimOwner, howner, strOf]
  rw [h1, h2]
  exact ⟨rfl, hm⟩

end AiMeshChat.Mailbox
