import AiMeshChat.Lib.Utf8

/-!
# A text that is cut at a byte

`encode("utf-8")[:n].decode("utf-8", errors="ignore")`: the bytes of a text are cut after `n` of
them, and a character that the cut leaves incomplete is dropped. What is read back is the
longest prefix of the text that fits into `n` bytes (`decodeIgnore_longest`).
-/

namespace AiMeshChat.Lib

/-- `data.decode("utf-8", errors="ignore")`. -/
def decodeIgnore (bs : List UInt8) : List Char := (tokens none bs).filterMap id

/-- The longest prefix whose encoding has at most `n` bytes. -/
structure LongestFit (n : ℕ) (cs p : List Char) : Prop where
  isPrefix : p <+: cs
  fits : (encode p).length ≤ n
  longest : ∀ q, q <+: cs → (encode q).length ≤ n → q.length ≤ p.length

theorem length_encodeChar_pos (c : Char) : 0 < (encodeChar c).length := by
  unfold encodeChar
  simp only
  split_ifs <;> exact Nat.zero_lt_succ _

theorem tokens_cut (c : Char) {n : ℕ} (h : n < (encodeChar c).length) :
    (tokens none ((encodeChar c).take n)).filterMap id = [] := by
  have hc := toNat_cases c
  have hlead {m : ℕ} {p : Pending} {rest : List UInt8} (hm : m < 256) (hp : first m = .lead p) :
      tokens none (UInt8.ofNat m :: rest) = tokens (some p) rest := by
    rw [tokens, toNat_byte hm, hp]
  cases n with
  | zero => rfl
  | succ n =>
    unfold encodeChar at h ⊢
    simp only at h ⊢
    split_ifs at h ⊢ with h1 h2 h3
    · simp at h
    · have hfirst : first (0xC0 + c.toNat / 64) = .lead { bits := c.toNat / 64, more := 0 } := by
        unfold first
        rw [if_neg (by omega), if_neg (by omega), if_pos (by omega)]
        rw [show 0xC0 + c.toNat / 64 - 0xC0 = c.toNat / 64 by omega]
      have hn : n = 0 := by
        simp only [List.length_cons, List.length_nil] at h
        omega
      subst hn
      simp only [List.take_succ_cons, List.take_zero]
      rw [hlead (by omega) hfirst]
      rfl
    · obtain ⟨lo, hi, hfirst, hlo, hhi⟩ := first_three (n := c.toNat) (by omega) h3 (by omega)
      simp only [List.take_succ_cons]
      rw [hlead (by omega) hfirst]
      simp only [List.length_cons, List.length_nil] at h
      obtain rfl | rfl : n = 0 ∨ n = 1 := by omega
      · rfl
      · simp only [List.take_succ_cons, List.take_zero]
        rw [tokens_more (m := 0) _ (by omega) hlo hhi rfl]
        rfl
    · obtain ⟨lo, hi, hfirst, hlo, hhi⟩ := first_four (n := c.toNat) (by omega) (by omega)
      simp only [List.take_succ_cons]
      rw [hlead (by omega) hfirst]
      simp only [List.length_cons, List.length_nil] at h
      obtain rfl | rfl | rfl : n = 0 ∨ n = 1 ∨ n = 2 := by omega
      · rfl
      · simp only [List.take_succ_cons, List.take_zero]
        rw [tokens_more (m := 1) _ (by omega) hlo hhi rfl]
        rfl
      · simp only [List.take_succ_cons, List.take_zero]
        rw [tokens_more (m := 1) _ (by omega) hlo hhi rfl,
          tokens_more (m := 0) _ (by omega) (by simp) (by simp; omega) rfl]
        rfl

/-- **What is left of a cut text is the longest prefix that fits.** -/
theorem decodeIgnore_longest (cs : List Char) :
    ∀ n, LongestFit n cs (decodeIgnore ((encode cs).take n)) := by
  induction cs with
  | nil =>
    intro n
    rw [encode_nil, List.take_nil]
    exact ⟨List.nil_prefix, Nat.zero_le _, fun q hq _ => hq.length_le⟩
  | cons c cs ih =>
    intro n
    rw [encode_cons, List.take_append]
    by_cases hfit : (encodeChar c).length ≤ n
    · have hrest := ih (n - (encodeChar c).length)
      have hread : decodeIgnore ((encodeChar c).take n ++
          (encode cs).take (n - (encodeChar c).length)) =
          c :: decodeIgnore ((encode cs).take (n - (encodeChar c).length)) := by
        rw [List.take_of_length_le hfit, decodeIgnore, tokens_encodeChar]
        rfl
      rw [hread]
      refine ⟨List.cons_prefix_cons.mpr ⟨rfl, hrest.isPrefix⟩, ?_, ?_⟩
      · have hlen := hrest.fits
        rw [encode_cons, List.length_append]
        omega
      · intro q hq hlen
        cases q with
        | nil => exact Nat.zero_le _
        | cons a q =>
          obtain ⟨rfl, htail⟩ := List.cons_prefix_cons.mp hq
          rw [encode_cons, List.length_append] at hlen
          have hle := hrest.longest q htail (by omega)
          simp only [List.length_cons]
          omega
    · have hcut : (tokens none ((encodeChar c).take n)).filterMap id = [] :=
        tokens_cut c (by omega)
      have hread : decodeIgnore ((encodeChar c).take n ++
          (encode cs).take (n - (encodeChar c).length)) = [] := by
        rw [show n - (encodeChar c).length = 0 by omega, List.take_zero, List.append_nil]
        exact hcut
      rw [hread]
      refine ⟨List.nil_prefix, Nat.zero_le _, ?_⟩
      intro q hq hlen
      cases q with
      | nil => exact Nat.le_refl _
      | cons a q =>
        obtain ⟨rfl, -⟩ := List.cons_prefix_cons.mp hq
        rw [encode_cons, List.length_append] at hlen
        omega

end AiMeshChat.Lib
