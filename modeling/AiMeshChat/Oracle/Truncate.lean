import AiMeshChat.Lib.Utf8Cut
import Mathlib.Data.Int.Notation

/-!
# Truncated results

`_truncate_result` of `oracle.py`: a result is cut after `max_bytes` bytes of UTF-8, and the cut
moves back to a newline, or else to a space, in the last three tenths of what is left. The
factor 0.7 is the rational 7/10 here.

A result that fits is returned as it is, with 0 for the bytes that are left of it: this count is
meant for a text that was cut (`truncated_exact`).
-/

namespace AiMeshChat.Oracle

open Lib

/-- `text.rfind(c, start)`, with `none` for -1. -/
def rfind (c : Char) (text : List Char) (start : ℕ) : Option ℕ :=
  (List.range text.length).reverse.find? fun i => decide (start ≤ i ∧ text[i]? = some c)

/-- The text before the last `c`, if this one stands behind `searchStart`. -/
def beforeLast (c : Char) (text : List Char) (searchStart : ℕ) : Option (List Char) :=
  match rfind c text searchStart with
  | some pos => if pos > searchStart then some (text.take pos) else none
  | none => none

/-- The line boundary comes first, then the space. -/
def backOff (truncated : List Char) (searchStart : ℕ) : List Char :=
  match beforeLast '\n' truncated searchStart with
  | some line => line
  | none => (beforeLast ' ' truncated searchStart).getD truncated

/-- What `_truncate_result` returns. -/
structure Truncation where
  text : String
  wasTruncated : Bool
  truncatedBytes : ℕ
  totalBytes : ℕ
  deriving DecidableEq

/-- `_truncate_result`. -/
def truncateResult (text : String) (maxBytes : ℤ) : Truncation :=
  let total := (encode text.toList).length
  if maxBytes ≤ 0 then ⟨text, false, 0, total⟩
  else if (total : ℤ) ≤ maxBytes then ⟨text, false, 0, total⟩
  else
    let truncated := decodeIgnore ((encode text.toList).take maxBytes.toNat)
    let searchStart := truncated.length * 7 / 10
    let kept := backOff truncated searchStart
    ⟨String.ofList kept, true, (encode kept).length, total⟩

/-! ## The cut -/

theorem beforeLast_some {c : Char} {text kept : List Char} {searchStart : ℕ}
    (h : beforeLast c text searchStart = some kept) :
    kept <+: text ∧ searchStart ≤ kept.length := by
  unfold beforeLast at h
  cases hpos : rfind c text searchStart with
  | none =>
    rw [hpos] at h
    cases h
  | some pos =>
    rw [hpos] at h
    dsimp only at h
    split at h
    · next hgt =>
      cases h
      have hmem := List.mem_of_find?_eq_some hpos
      rw [List.mem_reverse, List.mem_range] at hmem
      refine ⟨List.take_prefix _ _, ?_⟩
      rw [List.length_take]
      omega
    · cases h

theorem backOff_kept {truncated : List Char} {searchStart : ℕ}
    (h : searchStart ≤ truncated.length) :
    backOff truncated searchStart <+: truncated ∧
      searchStart ≤ (backOff truncated searchStart).length := by
  unfold backOff
  cases hline : beforeLast '\n' truncated searchStart with
  | some line => exact beforeLast_some hline
  | none =>
    cases hword : beforeLast ' ' truncated searchStart with
    | some word => exact beforeLast_some hword
    | none => exact ⟨List.prefix_rfl, h⟩

/-! ## The result -/

/-- The result is a prefix that fits, the whole text if and only if this fits, and otherwise at
least seven tenths of the longest prefix that fits. -/
structure CutAt (text : String) (maxBytes : ℤ) (r : Truncation) : Prop where
  isPrefix : r.text.toList <+: text.toList
  fits : ((encode r.text.toList).length : ℤ) ≤ maxBytes
  whole : r.text = text ↔ ((encode text.toList).length : ℤ) ≤ maxBytes
  flag : r.wasTruncated = false ↔ ((encode text.toList).length : ℤ) ≤ maxBytes
  enough : r.wasTruncated = true → ∀ p, LongestFit maxBytes.toNat text.toList p →
    p.length * 7 / 10 ≤ r.text.toList.length
  total : r.totalBytes = (encode text.toList).length

/-- The first count is that of the text that is returned. -/
def CountsReturned (r : Truncation) : Prop := r.truncatedBytes = (encode r.text.toList).length

/-- **A truncated result is exact**: it is cut where it has to be, and its counts are those of
what is returned and of the whole; without a cut the first count is 0. -/
theorem truncated_exact (text : String) {maxBytes : ℤ} (hmax : 0 < maxBytes) :
    CutAt text maxBytes (truncateResult text maxBytes) ∧
    ((truncateResult text maxBytes).wasTruncated = true →
      CountsReturned (truncateResult text maxBytes)) ∧
    ((truncateResult text maxBytes).wasTruncated = false →
      (truncateResult text maxBytes).truncatedBytes = 0) := by
  unfold truncateResult
  dsimp only
  rw [if_neg (by omega)]
  by_cases hfit : ((encode text.toList).length : ℤ) ≤ maxBytes
  · rw [if_pos hfit]
    refine ⟨⟨List.prefix_rfl, hfit, ⟨fun _ => hfit, fun _ => rfl⟩, ⟨fun _ => hfit, fun _ => rfl⟩,
      fun h => (by cases h), rfl⟩, fun h => (by cases h), fun _ => rfl⟩
  · rw [if_neg hfit]
    have hlong := decodeIgnore_longest text.toList maxBytes.toNat
    generalize decodeIgnore ((encode text.toList).take maxBytes.toNat) = truncated at hlong ⊢
    obtain ⟨hpre, henough⟩ :=
      @backOff_kept truncated (truncated.length * 7 / 10) (by omega)
    generalize backOff truncated (truncated.length * 7 / 10) = kept at hpre henough ⊢
    -- a prefix of what fits is no longer than it, in bytes too
    have hbytes : (encode kept).length ≤ maxBytes.toNat := by
      obtain ⟨rest, hrest⟩ := hpre
      have hfits := hlong.fits
      rw [← hrest, encode_append, List.length_append] at hfits
      omega
    refine ⟨⟨?_, ?_, ?_, ?_, ?_, rfl⟩, fun _ => ?_, fun h => (by cases h)⟩
    · rw [String.toList_ofList]
      exact hpre.trans hlong.isPrefix
    · rw [String.toList_ofList]
      omega
    · constructor
      · intro h
        rw [← h, String.toList_ofList] at hfit ⊢
        omega
      · intro h
        exact absurd h hfit
    · constructor
      · intro h
        cases h
      · intro h
        exact absurd h hfit
    · intro _ p hp
      have hle := hlong.longest p hp.isPrefix hp.fits
      rw [String.toList_ofList]
      omega
    · rw [CountsReturned, String.toList_ofList]

theorem truncated_exact_line :
    0 < (4 : ℤ) ∧ CutAt "ab\nc d" 4 (truncateResult "ab\nc d" 4) :=
  ⟨by decide, (truncated_exact "ab\nc d" (by decide)).1⟩

/-- A text that fits is returned with 0 for its bytes. -/
theorem short_counted_zero : ¬ ∀ (text : String) (maxBytes : ℤ), 0 < maxBytes →
    CutAt text maxBytes (truncateResult text maxBytes) ∧
    CountsReturned (truncateResult text maxBytes) := by
  intro h
  have hshort := (h "short" 100 (by decide)).2
  revert hshort
  unfold CountsReturned
  decide

end AiMeshChat.Oracle
