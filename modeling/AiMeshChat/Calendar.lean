import AiMeshChat.JsonText

/-!
# Timestamps read back

What `strftime(ISO_TIMESTAMP_FORMAT)` writes, `datetime.fromisoformat` reads as the same time,
with the fraction of the second cut off. The year of a `datetime` is at most 9999.
-/

namespace AiMeshChat

/-! ## Dates -/

theorem dayOfYear_bounds {doe : ℤ} (h₀ : 0 ≤ doe) (h₁ : doe < 146097) :
    let yoe := (doe - doe / 1460 + doe / 36524 - doe / 146096) / 365
    let doy := doe - (365 * yoe + yoe / 4 - yoe / 100)
    0 ≤ yoe ∧ yoe < 400 ∧ 0 ≤ doy ∧ doy < 366 := by
  dsimp only
  have hcentury : doe / 36524 = 0 ∨ doe / 36524 = 1 ∨ doe / 36524 = 2 ∨ doe / 36524 = 3 ∨
      doe / 36524 = 4 := by omega
  have hlast : doe / 146096 = 0 ∨ doe / 146096 = 1 := by omega
  generalize hy : (doe - doe / 1460 + doe / 36524 - doe / 146096) / 365 = y
  have hcenturies : y / 100 = 0 ∨ y / 100 = 1 ∨ y / 100 = 2 ∨ y / 100 = 3 := by omega
  -- in a known century the leap days are linear in the years
  rcases hcentury with hf | hf | hf | hf | hf <;> rcases hlast with hg | hg <;>
    rcases hcenturies with hc | hc | hc | hc <;> rw [hf, hg] at hy <;> rw [hc] <;> omega

theorem daysFromCivil_march {era yoe doy : ℤ} (hyoe : 0 ≤ yoe ∧ yoe < 400)
    (hdoy : 0 ≤ doy ∧ doy < 366) :
    let mp := (5 * doy + 2) / 153
    let m := if mp < 10 then mp + 3 else mp - 9
    daysFromCivil (yoe + era * 400 + (if m ≤ 2 then 1 else 0)) m (doy - (153 * mp + 2) / 5 + 1) =
      era * 146097 + (yoe * 365 + yoe / 4 - yoe / 100 + doy) - 719468 := by
  intro mp m
  have hmp : 0 ≤ mp ∧ mp < 12 := by omega
  by_cases hlate : mp < 10
  · have hm : m = mp + 3 := if_pos hlate
    have h₂ : ¬ m ≤ 2 := by omega
    have h₃ : 2 < m := by omega
    have hback : m - 3 = mp := by omega
    simp only [daysFromCivil, if_neg h₂, if_pos h₃, hback]
    omega
  · have hm : m = mp - 9 := if_neg hlate
    have h₂ : m ≤ 2 := by omega
    have h₃ : ¬ 2 < m := by omega
    have hback : m + 9 = mp := by omega
    have hyear : yoe + era * 400 + 1 - 1 = yoe + era * 400 := by omega
    simp only [daysFromCivil, if_pos h₂, if_neg h₃, hyear, hback]
    omega

theorem daysFromCivil_civilFromDays (z : ℤ) :
    daysFromCivil (civilFromDays z).1 (civilFromDays z).2.1 (civilFromDays z).2.2 = z := by
  obtain ⟨doe, hdoe⟩ : ∃ doe, doe = z + 719468 - (z + 719468) / 146097 * 146097 := ⟨_, rfl⟩
  have hb := @dayOfYear_bounds doe (by omega) (by omega)
  have hday := @daysFromCivil_march ((z + 719468) / 146097) _ _ ⟨hb.1, hb.2.1⟩ hb.2.2
  simp only [civilFromDays, ← hdoe]
  dsimp only at hday
  rw [hday]
  omega

/-- The dates of the days that a `datetime` knows. -/
theorem civilFromDays_bounds {z : ℤ} (h₀ : 0 ≤ z) (h₁ : z < 2932897) :
    (1 ≤ (civilFromDays z).1 ∧ (civilFromDays z).1 < 10000) ∧
      (1 ≤ (civilFromDays z).2.1 ∧ (civilFromDays z).2.1 ≤ 12) ∧
      (1 ≤ (civilFromDays z).2.2 ∧ (civilFromDays z).2.2 ≤ 31) := by
  obtain ⟨doe, hdoe⟩ : ∃ doe, doe = z + 719468 - (z + 719468) / 146097 * 146097 := ⟨_, rfl⟩
  have hb := @dayOfYear_bounds doe (by omega) (by omega)
  simp only [civilFromDays, ← hdoe]
  dsimp only at hb
  generalize (doe - doe / 1460 + doe / 36524 - doe / 146096) / 365 = yoe at hb ⊢
  obtain ⟨doy, hdoy⟩ : ∃ doy, doy = doe - (365 * yoe + yoe / 4 - yoe / 100) := ⟨_, rfl⟩
  rw [← hdoy] at hb ⊢
  refine ⟨⟨by omega, ?_⟩, ⟨by omega, by omega⟩, by omega, by omega⟩
  by_cases hend : yoe = 399 ∧ (z + 719468) / 146097 = 24
  · have hmonth : (5 * doy + 2) / 153 < 10 := by omega
    simp only [if_pos hmonth]
    omega
  · omega

/-! ## Digits -/

theorem digits?_eq {cs : List Char} (hne : cs ≠ []) (hall : cs.all Char.isDigit) :
    digits? cs = some ((Nat.ofDigitChars 10 cs 0 : ℕ) : ℤ) := by
  have hfold (n : ℕ) : cs.foldl (fun (n : ℤ) c => 10 * n + (c.toNat - 48 : ℕ)) n =
      ((Nat.ofDigitChars 10 cs n : ℕ) : ℤ) := by
    clear hne hall
    induction cs generalizing n with
    | nil => rfl
    | cons c cs ih =>
      rw [List.foldl_cons, Nat.ofDigitChars_cons, ← ih]
      push_cast
      rfl
  rw [digits?, if_pos ⟨hne, hall⟩]
  exact congrArg some (hfold 0)

theorem zeroPad_toList (w n : ℕ) : (zeroPad w n).toList =
    List.replicate (w - (Nat.toDigits 10 n).length) '0' ++ Nat.toDigits 10 n := String.toList_ofList

theorem all_isDigit_zeroPad (w n : ℕ) : (zeroPad w n).toList.all Char.isDigit = true := by
  rw [zeroPad_toList, List.all_append, toDigits_all_isDigit, Bool.and_true]
  exact List.all_eq_true.mpr fun c hc => (List.eq_of_mem_replicate hc) ▸ rfl

theorem digits?_zeroPad {w n : ℕ} (hw : 0 < w) (hn : n < 10 ^ w) :
    (zeroPad w n).toList.length = w ∧ digits? (zeroPad w n).toList = some (n : ℤ) := by
  have hlen : (Nat.toDigits 10 n).length ≤ w :=
    (Nat.length_toDigits_le_iff (by decide) hw).mpr hn
  constructor
  · rw [zeroPad_toList, List.length_append, List.length_replicate]
    omega
  · have hne : (zeroPad w n).toList ≠ [] := by
      rw [zeroPad_toList]
      exact List.append_ne_nil_of_right_ne_nil _ Nat.toDigits_ne_nil
    rw [digits?_eq hne (all_isDigit_zeroPad w n), zeroPad_toList, Nat.ofDigitChars_append,
      Nat.ofDigitChars_replicate_zero, Nat.mul_zero, Nat.ofDigitChars_ten_toDigits]

theorem zeroPad_two {n : ℕ} (hn : n < 100) :
    ∃ a b, (zeroPad 2 n).toList = [a, b] ∧ digits? [a, b] = some (n : ℤ) := by
  obtain ⟨hlen, hread⟩ := digits?_zeroPad (w := 2) (by decide) hn
  obtain ⟨a, b, hab⟩ := List.length_eq_two.mp hlen
  exact ⟨a, b, hab, hab ▸ hread⟩

theorem zeroPad_four {n : ℕ} (hn : n < 10000) :
    ∃ a b c d, (zeroPad 4 n).toList = [a, b, c, d] ∧ digits? [a, b, c, d] = some (n : ℤ) := by
  obtain ⟨hlen, hread⟩ := digits?_zeroPad (w := 4) (by decide) hn
  obtain ⟨a, b, c, d, habcd⟩ : ∃ a b c d, (zeroPad 4 n).toList = [a, b, c, d] := by
    match h : (zeroPad 4 n).toList, hlen with
    | [a, b, c, d], _ => exact ⟨a, b, c, d, rfl⟩
  exact ⟨a, b, c, d, habcd, habcd ▸ hread⟩

/-! ## Timestamps -/

/-- The first microsecond that no `datetime` holds. -/
def END_OF_TIME : ℕ := 253402300800000000

theorem length_isoFormat {now : ℕ} (h : now < END_OF_TIME) :
    (isoFormat now).toList.length = 20 := by
  unfold END_OF_TIME at h
  obtain ⟨z, hz⟩ : ∃ z : ℤ, z = (now / 1000000 / 86400 : ℕ) := ⟨_, rfl⟩
  obtain ⟨⟨hy₀, hy₁⟩, ⟨hm₀, hm₁⟩, hd₀, hd₁⟩ := civilFromDays_bounds (z := z) (by omega) (by omega)
  have hyear := (digits?_zeroPad (w := 4) (n := (civilFromDays z).1.toNat) (by decide) (by omega)).1
  have hpart {n : ℕ} (hn : n < 100) : (zeroPad 2 n).toList.length = 2 :=
    (digits?_zeroPad (by decide) hn).1
  have hmonth := hpart (n := (civilFromDays z).2.1.toNat) (by omega)
  have hday := hpart (n := (civilFromDays z).2.2.toNat) (by omega)
  have hhour := hpart (n := now / 1000000 % 86400 / 3600) (by omega)
  have hminute := hpart (n := now / 1000000 % 86400 / 60 % 60) (by omega)
  have hsecond := hpart (n := now / 1000000 % 86400 % 60) (by omega)
  simp only [isoFormat, ← hz, String.toList_append, List.length_append, hyear, hmonth, hday, hhour,
    hminute, hsecond]
  rfl

theorem mem_isoFormat {now : ℕ} {c : Char} (h : c ∈ (isoFormat now).toList) :
    c.isDigit = true ∨ c ∈ ['-', 'T', ':', 'Z'] := by
  have hdigit {w n : ℕ} (hc : c ∈ (zeroPad w n).toList) : c.isDigit = true :=
    List.all_eq_true.mp (all_isDigit_zeroPad w n) c hc
  have hdash : "-".toList = ['-'] := rfl
  have hcolon : ":".toList = [':'] := rfl
  have hT : "T".toList = ['T'] := rfl
  have hZ : "Z".toList = ['Z'] := rfl
  unfold isoFormat at h
  generalize civilFromDays (now / 1000000 / 86400 : ℕ) = date at h
  obtain ⟨y, m, d⟩ := date
  simp only [String.toList_append, List.mem_append, hdash, hcolon, hT, hZ, List.mem_singleton] at h
  simp only [List.mem_cons, List.not_mem_nil, or_false]
  rcases h with ((((((((((h | h) | h) | h) | h) | h) | h) | h) | h) | h) | h) | h
  all_goals first | exact .inl (hdigit h) | simp [h]

theorem fromIsoFormat_of_toList {s : String} {y₁ y₂ y₃ y₄ m₁ m₂ d₁ d₂ a₁ a₂ b₁ b₂ c₁ c₂ : Char}
    {y m d h n t : ℤ}
    (hs : s.toList = [y₁, y₂, y₃, y₄, '-', m₁, m₂, '-', d₁, d₂, 'T', a₁, a₂, ':', b₁, b₂, ':', c₁,
      c₂, 'Z'])
    (hy : digits? [y₁, y₂, y₃, y₄] = some y) (hm : digits? [m₁, m₂] = some m)
    (hd : digits? [d₁, d₂] = some d) (hh : digits? [a₁, a₂] = some h)
    (hn : digits? [b₁, b₂] = some n) (ht : digits? [c₁, c₂] = some t)
    (hvalid : 1 ≤ y ∧ 1 ≤ m ∧ m ≤ 12 ∧ 1 ≤ d ∧ d ≤ 31 ∧ h < 24 ∧ n < 60 ∧ t < 60 ∧
      civilFromDays (daysFromCivil y m d) = (y, m, d)) :
    fromIsoFormat s =
      some ((daysFromCivil y m d * 86400 + h * 3600 + n * 60 + t) * second) := by
  unfold fromIsoFormat
  rw [hs]
  change (do
    let y ← digits? [y₁, y₂, y₃, y₄]
    let m ← digits? [m₁, m₂]
    let d ← digits? [d₁, d₂]
    let h ← digits? [a₁, a₂]
    let n ← digits? [b₁, b₂]
    let s ← digits? [c₁, c₂]
    if 1 ≤ y ∧ 1 ≤ m ∧ m ≤ 12 ∧ 1 ≤ d ∧ d ≤ 31 ∧ h < 24 ∧ n < 60 ∧ s < 60 ∧
        civilFromDays (daysFromCivil y m d) = (y, m, d) then
      some ((daysFromCivil y m d * 86400 + h * 3600 + n * 60 + s) * second)
    else none) = _
  rw [hy, hm, hd, hh, hn, ht]
  exact if_pos hvalid

theorem fromIsoFormat_isoFormat {now : ℕ} (h : now < END_OF_TIME) :
    fromIsoFormat (isoFormat now) = some ((now / 1000000 : ℕ) * second) := by
  unfold END_OF_TIME at h
  obtain ⟨s, hs⟩ : ∃ s, s = now / 1000000 := ⟨_, rfl⟩
  obtain ⟨z, hz⟩ : ∃ z : ℤ, z = (s / 86400 : ℕ) := ⟨_, rfl⟩
  obtain ⟨⟨hy₀, hy₁⟩, ⟨hm₀, hm₁⟩, hd₀, hd₁⟩ := civilFromDays_bounds (z := z) (by omega) (by omega)
  have hback := daysFromCivil_civilFromDays z
  generalize hdate : civilFromDays z = date at *
  obtain ⟨y, m, d⟩ := date
  dsimp only at hy₀ hy₁ hm₀ hm₁ hd₀ hd₁ hback
  obtain ⟨t, ht⟩ : ∃ t, t = s % 86400 := ⟨_, rfl⟩
  obtain ⟨y₁, y₂, y₃, y₄, hyear, hyearRead⟩ := zeroPad_four (n := y.toNat) (by omega)
  obtain ⟨m₁, m₂, hmonth, hmonthRead⟩ := zeroPad_two (n := m.toNat) (by omega)
  obtain ⟨d₁, d₂, hday, hdayRead⟩ := zeroPad_two (n := d.toNat) (by omega)
  obtain ⟨a₁, a₂, hhour, hhourRead⟩ := zeroPad_two (n := t / 3600) (by omega)
  obtain ⟨b₁, b₂, hminute, hminuteRead⟩ := zeroPad_two (n := t / 60 % 60) (by omega)
  obtain ⟨c₁, c₂, hsecond, hsecondRead⟩ := zeroPad_two (n := t % 60) (by omega)
  have htext : (isoFormat now).toList = [y₁, y₂, y₃, y₄, '-', m₁, m₂, '-', d₁, d₂, 'T', a₁, a₂,
      ':', b₁, b₂, ':', c₁, c₂, 'Z'] := by
    simp only [isoFormat, ← hs, ← hz, hdate, ← ht, String.toList_append, hyear, hmonth, hday, hhour,
      hminute, hsecond]
    rfl
  have hy : (y.toNat : ℤ) = y := by omega
  have hm : (m.toNat : ℤ) = m := by omega
  have hd : (d.toNat : ℤ) = d := by omega
  rw [hy] at hyearRead
  rw [hm] at hmonthRead
  rw [hd] at hdayRead
  have hvalid : 1 ≤ y ∧ 1 ≤ m ∧ m ≤ 12 ∧ 1 ≤ d ∧ d ≤ 31 ∧ ((t / 3600 : ℕ) : ℤ) < 24 ∧
      ((t / 60 % 60 : ℕ) : ℤ) < 60 ∧ ((t % 60 : ℕ) : ℤ) < 60 ∧
      civilFromDays (daysFromCivil y m d) = (y, m, d) := by
    rw [hback, hdate]
    exact ⟨hy₀, hm₀, hm₁, hd₀, hd₁, by omega, by omega, by omega, rfl⟩
  have htotal : z * 86400 + (t / 3600 : ℕ) * 3600 + (t / 60 % 60 : ℕ) * 60 + (t % 60 : ℕ) = s := by
    omega
  rw [fromIsoFormat_of_toList htext hyearRead hmonthRead hdayRead hhourRead hminuteRead hsecondRead
    hvalid, hback, htotal, hs]

end AiMeshChat
