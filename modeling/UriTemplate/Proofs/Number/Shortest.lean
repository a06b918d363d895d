import UriTemplate.Proofs.Number.Exact
import UriTemplate.Proofs.Text.Numeral

/-!
# The search for the shortest decimal

The search goes from coarse grids of decimals to finer ones and ends at the first one with a point in
the interval (`isShortest_shortest`): a grid has one only if a neighbour of the number is one
(`noPoint_of_gridPoint?`), no grid before the first can have one, and the last one holds the number
itself. No decimal in the interval has fewer digits than the one that is found
(`IsShortest.digits_lt`), since between two decimals of different lengths lies a power of ten, which
would be a point of a coarser grid.
-/

namespace UriTemplate
set_option autoImplicit false

namespace RoundingInterval

/-- The number lies between the ends, above zero. -/
structure Encloses (i : RoundingInterval) : Prop where
  pos : 0 < i.low
  low_lt : i.low < i.value
  lt_high : i.value < i.high

/-- No multiple of `10 ^ k` lies in the interval. -/
def NoPoint (i : RoundingInterval) (k : Int) : Prop := ∀ d : Nat, ¬i.Holds ((d : Rat) * 10 ^ k)

/-- A decimal in the interval, on a grid that is the coarsest of those with a point there. -/
structure IsShortest (i : RoundingInterval) (s : Scientific) : Prop where
  holds : i.Holds s.value
  noPoint : ∀ k, s.exponent < k → i.NoPoint k

variable {i : RoundingInterval} {tie : Tie} {k : Int}

theorem Encloses.holds_value (h : i.Encloses) : i.Holds (i.units i.value) where
  low_le := (units_lt_units_iff.2 h.low_lt).le
  le_high := (units_lt_units_iff.2 h.lt_high).le
  inside _ := ⟨units_lt_units_iff.2 h.low_lt, units_lt_units_iff.2 h.lt_high⟩

theorem Encloses.pos_of_holds (h : i.Encloses) {q : Rat} (hq : i.Holds q) : 0 < q := by
  have hlow : i.units 0 < i.units i.low := units_lt_units_iff.2 h.pos
  have hzero : i.units 0 = 0 := by rw [units, Nat.cast_zero, zero_mul]
  rw [hzero] at hlow
  exact hlow.trans_le hq.low_le

/-! ## One grid -/

theorem scale_pos (i : RoundingInterval) (k : Int) : 0 < (i.scale k).2 :=
  Nat.mul_pos (Nat.pow_pos (by omega)) (Nat.pow_pos (by omega))

theorem holds_of_gridPoint? {d : Nat} (h : i.gridPoint? tie k = some d) :
    i.Holds ((d : Rat) * 10 ^ k) := by
  rw [← contains_iff]
  unfold gridPoint? at h
  simp only at h
  split at h
  · cases h
  · rename_i hbelow _
    cases h
    exact hbelow
  · rename_i _ habove
    cases h
    exact habove
  · rename_i hbelow habove
    split at h
    · cases h
      exact hbelow
    split at h
    · cases h
      exact habove
    cases tie with
    | upward =>
      cases h
      exact habove
    | toEven =>
      cases h
      split
      · exact hbelow
      · exact habove

theorem contains_of_gridPoint? (h : i.gridPoint? tie k = none) :
    i.contains k (i.value * (i.scale k).1 / (i.scale k).2) = false ∧
      i.contains k (i.value * (i.scale k).1 / (i.scale k).2 + 1) = false := by
  unfold gridPoint? at h
  simp only at h
  split at h
  · rename_i hbelow habove
    exact ⟨hbelow, habove⟩
  · cases h
  · cases h
  · split at h
    · cases h
    split at h
    · cases h
    cases tie <;> cases h

/-- A point in the interval has the neighbour of the number on its side between the two. -/
theorem noPoint_of_gridPoint? (h : i.Encloses) (hnone : i.gridPoint? tie k = none) :
    i.NoPoint k := by
  intro d hd
  obtain ⟨hbelow, habove⟩ := contains_of_gridPoint? hnone
  have hbelow_le := Nat.div_mul_le_self (i.value * (i.scale k).1) (i.scale k).2
  have hlt_above := Nat.lt_div_mul_add (a := i.value * (i.scale k).1) (i.scale_pos k)
  rw [← Nat.succ_mul] at hlt_above
  rw [steps_le_units_iff] at hbelow_le
  have hle_above := (i.units_le_steps_iff k _ _).1 hlt_above.le
  generalize i.value * (i.scale k).1 / (i.scale k).2 = below at *
  have hten : (0 : Rat) < 10 ^ k := by positivity
  rcases Nat.lt_or_ge below d with hlt | hle
  · have hpoint : ((below + 1 : Nat) : Rat) * 10 ^ k ≤ d * 10 ^ k :=
      mul_le_mul_of_nonneg_right (by exact_mod_cast hlt) hten.le
    rw [(i.contains_iff k _).2 (h.holds_value.between hd hle_above hpoint)] at habove
    cases habove
  · have hpoint : (d : Rat) * 10 ^ k ≤ below * 10 ^ k :=
      mul_le_mul_of_nonneg_right (by exact_mod_cast hle) hten.le
    rw [(i.contains_iff k _).2 (hd.between h.holds_value hpoint hbelow_le)] at hbelow
    cases hbelow

/-! ## From coarse grids to finer ones -/

/-- Each step rules out one grid more; the last grid has a point that is known. -/
theorem isShortest_search (h : i.Encloses) (tie : Tie) (fuel : Nat) (k : Int)
    (hcoarser : ∀ k', k < k' → i.NoPoint k')
    (hlast : i.Holds (((i.value * (i.scale (k - fuel)).1 / (i.scale (k - fuel)).2 : Nat) : Rat) *
      10 ^ (k - fuel))) :
    i.IsShortest (i.search tie fuel k) := by
  -- on the number of grids that are left, with the grids before them ruled out
  induction fuel generalizing k with
  | zero =>
    rw [Nat.cast_zero, sub_zero] at hlast
    exact ⟨hlast, hcoarser⟩
  | succ fuel ih =>
    rw [search]
    split
    · rename_i digits hpoint
      exact ⟨holds_of_gridPoint? hpoint, hcoarser⟩
    · rename_i hnone
      have hsteps : k - 1 - (fuel : Int) = k - (fuel + 1 : Nat) := by omega
      refine ih (k - 1) (fun k' hk' => ?_) (by rwa [hsteps])
      rcases eq_or_lt_of_le (Int.le_of_sub_one_lt hk') with rfl | hlt
      · exact noPoint_of_gridPoint? h hnone
      · exact hcoarser k' hlt

theorem units_high_lt_coarsest (i : RoundingInterval) : i.units i.high < 10 ^ i.coarsest := by
  obtain ⟨bound, hbound⟩ : ∃ bound, bound =
      i.high * twoPow i.exponent.toNat / twoPow (-i.exponent).toNat + 1 := ⟨_, rfl⟩
  have hhigh : i.units i.high ≤ bound := by
    have hlt := Nat.lt_div_mul_add (a := i.high * twoPow i.exponent.toNat)
      (b := twoPow (-i.exponent).toNat) (Nat.pow_pos (by omega))
    rw [← Nat.succ_mul, Nat.succ_eq_add_one, ← hbound] at hlt
    have hle := (i.units_le_steps_iff 0 i.high bound).1 (by
      simpa [scale, tenPow] using hlt.le)
    rwa [zpow_zero, mul_one] at hle
  have hlength : bound < 10 ^ (numeral bound).length :=
    (Nat.length_toDigits_le_iff (by omega) (List.length_pos_iff.2 (numeral_ne_nil bound))).1
      (le_refl _)
  rw [coarsest, ← hbound, zpow_natCast]
  exact hhigh.trans_lt (by exact_mod_cast hlength)

/-- The whole interval lies below the first point of the first grid. -/
theorem noPoint_coarsest (h : i.Encloses) (hk : i.coarsest ≤ k) : i.NoPoint k := by
  intro d hd
  have hgrid : (10 : Rat) ^ i.coarsest ≤ 10 ^ k := zpow_le_zpow_right₀ (by norm_num) hk
  have hone : (1 : Rat) ≤ d := by
    have hne : d ≠ 0 := by
      rintro rfl
      have hpos := h.pos_of_holds hd
      rw [Nat.cast_zero, zero_mul] at hpos
      exact lt_irrefl _ hpos
    exact_mod_cast Nat.pos_of_ne_zero hne
  have hpoint := le_mul_of_one_le_left (zpow_nonneg (by norm_num : (0 : Rat) ≤ 10) k) hone
  have hbelow := i.units_high_lt_coarsest
  have hle := hd.le_high
  linarith

/-- The last grid holds the number: the power of two in its denominator divides the power of ten. -/
theorem holds_finest (h : i.Encloses) (hk : k = i.finest) :
    i.Holds (((i.value * (i.scale k).1 / (i.scale k).2 : Nat) : Rat) * 10 ^ k) := by
  have hdvd : (i.scale k).2 ∣ i.value * (i.scale k).1 := by
    have hten : k.toNat = 0 := by
      rw [hk, finest]
      omega
    have htwo : (-k).toNat = (-i.exponent).toNat := by
      rw [hk, finest]
      omega
    show twoPow (-i.exponent).toNat * tenPow k.toNat ∣
      i.value * (twoPow i.exponent.toNat * tenPow (-k).toNat)
    rw [hten, htwo]
    have hpow : twoPow (-i.exponent).toNat ∣ tenPow (-i.exponent).toNat :=
      pow_dvd_pow_of_dvd (by decide : 2 ∣ 10) _
    exact (Nat.mul_one _).symm ▸ (hpow.mul_left _).mul_left _
  have hexact := Nat.div_mul_cancel hdvd
  have heq := le_antisymm ((i.steps_le_units_iff k _ _).1 hexact.le)
    ((i.units_le_steps_iff k _ _).1 hexact.ge)
  rw [heq]
  exact h.holds_value

/-- **The search** finds a shortest decimal. -/
theorem isShortest_shortest (h : i.Encloses) (tie : Tie) : i.IsShortest (i.shortest tie) := by
  have hgrids : i.coarsest - ((i.coarsest - i.finest).toNat : Int) = i.finest := by
    have hcoarsest : 0 ≤ i.coarsest := Int.natCast_nonneg _
    have hfinest : i.finest ≤ 0 := min_le_right _ _
    omega
  exact isShortest_search h tie _ _ (fun k hk => noPoint_coarsest h hk.le)
    (holds_finest h hgrids)

/-! ## The digits of a shortest decimal -/

namespace IsShortest

variable {s : Scientific}

theorem digits_pos (hs : i.IsShortest s) (h : i.Encloses) : 0 < s.digits := by
  have hpos := h.pos_of_holds hs.holds
  apply Nat.pos_of_ne_zero
  intro hzero
  rw [Scientific.value, hzero, Nat.cast_zero, zero_mul] at hpos
  exact lt_irrefl _ hpos

/-- A zero at the end could be left out on the next coarser grid. -/
theorem digits_mod_ten (hs : i.IsShortest s) : s.digits % 10 ≠ 0 := by
  intro hzero
  apply hs.noPoint (s.exponent + 1) (Int.lt_succ _) (s.digits / 10)
  have hten : (10 : Rat) ≠ 0 := by norm_num
  have hdigits : (s.digits : Rat) = (s.digits / 10 : Nat) * 10 := by
    exact_mod_cast (Nat.div_mul_cancel (Nat.dvd_of_mod_eq_zero hzero)).symm
  have hvalue : ((s.digits / 10 : Nat) : Rat) * 10 ^ (s.exponent + 1) = s.value := by
    rw [Scientific.value, hdigits, add_comm, zpow_one_add₀ hten, mul_assoc]
  rw [hvalue]
  exact hs.holds

end IsShortest

end RoundingInterval

/-- A number with a decimal of at most so many digits. -/
def HasDigits (n : Nat) (q : Rat) : Prop :=
  ∃ m k : Int, m.natAbs < 10 ^ n ∧ q = m * 10 ^ k

/-- **No decimal with fewer digits** lies in the interval: on its finer grid it would be so small
that a power of ten, a point of a coarser grid, lies between it and the shortest one. -/
theorem RoundingInterval.IsShortest.digits_lt {i : RoundingInterval} {s : Scientific}
    (hs : i.IsShortest s) (h : i.Encloses) {n : Nat} {q : Rat} (hq : i.Holds q)
    (hdigits : HasDigits n q) : s.digits < 10 ^ n := by
  obtain ⟨m, k, hm, rfl⟩ := hdigits
  by_contra hmore
  rw [not_lt] at hmore
  have hten : (1 : Rat) ≤ 10 := by norm_num
  have hpos := pos_of_mul_pos_left (h.pos_of_holds hq) (zpow_nonneg (by norm_num) k)
  obtain ⟨d, rfl⟩ := Int.eq_ofNat_of_zero_le (by exact_mod_cast hpos.le : 0 ≤ m)
  rw [Int.cast_natCast] at hq hpos
  have hd : d < 10 ^ n := hm
  have hk : k ≤ s.exponent := by
    by_contra hlt
    exact hs.noPoint k (not_le.1 hlt) d hq
  have hn : 0 < n := by
    apply Nat.pos_of_ne_zero
    rintro rfl
    have hzero : d = 0 := Nat.lt_one_iff.1 hd
    rw [hzero, Nat.cast_zero] at hpos
    exact lt_irrefl _ hpos
  have hpower : ((1 : Nat) : Rat) * 10 ^ (s.exponent + n) = 10 ^ n * 10 ^ s.exponent := by
    rw [Nat.cast_one, one_mul, add_comm, zpow_add₀ (by norm_num), zpow_natCast]
  -- the power of ten above all decimals of `n` digits on the finer grid
  apply hs.noPoint (s.exponent + n) (by omega) 1
  rw [hpower]
  refine hq.between hs.holds ?_ ?_
  · calc (d : Rat) * 10 ^ k
      _ ≤ 10 ^ n * 10 ^ k := mul_le_mul_of_nonneg_right (by exact_mod_cast hd.le) (by positivity)
      _ ≤ 10 ^ n * 10 ^ s.exponent :=
        mul_le_mul_of_nonneg_left (zpow_le_zpow_right₀ hten hk) (by positivity)
  · exact mul_le_mul_of_nonneg_right (by exact_mod_cast hmore) (by positivity)

end UriTemplate
