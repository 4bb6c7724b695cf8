import Mathlib.Algebra.BigOperators.Ring.Finset
import IrqBalance.IrqList
import IrqBalance.Lib.SquaredDistances
import IrqBalance.Lib.Sums

/-!
# The sums of the load statistics

`total_load` and `deviations` are sums in 64 bits, the second one of squares of nanoseconds. They are
what they stand for if and only if these sums fit: two cpus with loads 5 s apart are too far from each
other.
-/

namespace IrqBalance

open SquaredDistances

variable {s : State} {os : List ObjId}

/-- The numbers that the loads stand for. -/
def loadsOf (s : State) (os : List ObjId) : List ℤ := os.map fun o => ((s.objs o).load.toNat : ℤ)

/-- `total_load` and `deviations` are the sum of the loads and of their squared distances to `avg_load`. -/
structure StatsExact (s : State) (os : List ObjId) : Prop where
  total : ((loadStats os s).totalLoad.toNat : ℤ) = (loadsOf s os).sum
  deviations : ((loadStats os s).deviations.toNat : ℤ) =
    sumSq (loadStats os s).avgLoad.toNat (loadsOf s os)

theorem foldl_gatherLoadStats (s : State) (os : List ObjId) (info : LoadBalanceInfo) :
    (os.foldl (gatherLoadStats s) info).totalLoad =
        os.foldl (fun acc o => acc + (s.objs o).load) info.totalLoad ∧
      (os.foldl (gatherLoadStats s) info).loadSources = info.loadSources + os.length ∧
      (os.foldl (gatherLoadStats s) info).deviations = info.deviations := by
  induction os generalizing info with
  | nil => exact ⟨rfl, rfl, rfl⟩
  | cons o os ih =>
    obtain ⟨htotal, hsources, hdeviations⟩ := ih (gatherLoadStats s info o)
    refine ⟨htotal, ?_, hdeviations⟩
    rw [List.foldl_cons, hsources, List.length_cons, gatherLoadStats]
    dsimp only
    omega

/-- `deviation` in `compute_deviations`. -/
def distance (avg load : UInt64) : UInt64 := if avg < load then load - avg else avg - load

theorem sq_distance (avg load : UInt64) :
    (((distance avg load).toNat * (distance avg load).toNat : ℕ) : ℤ) = ((load.toNat : ℤ) - avg.toNat) ^ 2 := by
  unfold distance
  split_ifs with hlt
  · have hle : avg.toNat ≤ load.toNat := Nat.le_of_lt (UInt64.lt_iff_toNat_lt.1 hlt)
    rw [Sums.toNat_sub (UInt64.le_iff_toNat_le.2 hle), Nat.cast_mul, Nat.cast_sub hle]
    ring
  · have hle : load.toNat ≤ avg.toNat := Nat.le_of_not_lt fun h => hlt (UInt64.lt_iff_toNat_lt.2 h)
    rw [Sums.toNat_sub (UInt64.le_iff_toNat_le.2 hle), Nat.cast_mul, Nat.cast_sub hle]
    ring

theorem foldl_computeDeviations (s : State) (os : List ObjId) (info : LoadBalanceInfo) :
    os.foldl (computeDeviations s) info = { info with
      deviations := os.foldl (fun acc o => acc + distance info.avgLoad (s.objs o).load *
        distance info.avgLoad (s.objs o).load) info.deviations } := by
  induction os generalizing info with
  | nil => rfl
  | cons o os ih => rw [List.foldl_cons, ih]; rfl

theorem sum_loadsOf (s : State) (os : List ObjId) :
    (loadsOf s os).sum = ((os.map fun o => (s.objs o).load.toNat).sum : ℕ) := by
  rw [loadsOf, Nat.cast_list_sum, List.map_map]
  rfl

theorem totalLoad_eq (s : State) (os : List ObjId) :
    (loadStats os s).totalLoad = os.foldl (fun acc o => acc + (s.objs o).load) 0 := by
  rw [loadStats, foldl_computeDeviations]
  exact (foldl_gatherLoadStats s os {}).1

/-- `total_load` is the sum of the loads, modulo `2 ^ 64`. -/
theorem toNat_totalLoad (s : State) (os : List ObjId) :
    ((loadStats os s).totalLoad.toNat : ℤ) = (loadsOf s os).sum % 2 ^ 64 := by
  rw [totalLoad_eq, Sums.toNat_runningSum_eq_mod, sum_loadsOf, UInt64.toNat_zero, Nat.zero_add]
  rfl

/-- `avg_load` is the quotient of `total_load` and the number of objects. -/
theorem toNat_avgLoad (s : State) (os : List ObjId) (hos : os ≠ []) :
    (loadStats os s).avgLoad.toNat = (loadStats os s).totalLoad.toNat / (os.length % 2 ^ 64) := by
  have hlength : os.length ≠ 0 := fun h => hos (List.length_eq_zero_iff.1 h)
  have hsources : (os.foldl (gatherLoadStats s) {}).loadSources = os.length :=
    (foldl_gatherLoadStats s os {}).2.1.trans (Nat.zero_add _)
  simp only [loadStats, foldl_computeDeviations, hsources, if_neg hlength, UInt64.toNat_div,
    UInt64.toNat_ofNat']

/-- `deviations` is the sum of the squared distances, modulo `2 ^ 64`. -/
theorem toNat_deviations (s : State) (os : List ObjId) : ((loadStats os s).deviations.toNat : ℤ) =
    sumSq (loadStats os s).avgLoad.toNat (loadsOf s os) % 2 ^ 64 := by
  have hdeviations : (loadStats os s).deviations =
      os.foldl (fun acc o => acc + distance (loadStats os s).avgLoad (s.objs o).load *
        distance (loadStats os s).avgLoad (s.objs o).load) 0 := by
    simp only [loadStats, foldl_computeDeviations, (foldl_gatherLoadStats s os {}).2.2]
  have hsum : sumSq (loadStats os s).avgLoad.toNat (loadsOf s os) =
      ((os.map fun o => (distance (loadStats os s).avgLoad (s.objs o).load).toNat *
        (distance (loadStats os s).avgLoad (s.objs o).load).toNat).sum : ℕ) := by
    simp only [sumSq, loadsOf, Nat.cast_list_sum, List.map_map, Function.comp_def, sq_distance]
  rw [hdeviations, Sums.toNat_runningSum_mod (fun o _ => UInt64.toNat_mul _ _), hsum, UInt64.toNat_zero,
    Nat.zero_add]
  rfl

/-- **The sums are exact if and only if they fit.** -/
theorem statsExact_iff_fits (hos : os ≠ []) : StatsExact s os ↔
    (loadsOf s os).sum < 2 ^ 64 ∧
      sumSq ((loadsOf s os).sum / (os.length % 2 ^ 64)) (loadsOf s os) < 2 ^ 64 := by
  have hnonneg : 0 ≤ (loadsOf s os).sum := by
    rw [sum_loadsOf]
    exact Int.natCast_nonneg _
  have havg : ((loadStats os s).avgLoad.toNat : ℤ) =
      (loadStats os s).totalLoad.toNat / (os.length % 2 ^ 64) := by
    rw [toNat_avgLoad s os hos]
    rfl
  have hfits : ∀ n : ℤ, 0 ≤ n → (n % 2 ^ 64 = n ↔ n < 2 ^ 64) := fun n hn => by omega
  have htotal : ((loadStats os s).totalLoad.toNat : ℤ) = (loadsOf s os).sum ↔ (loadsOf s os).sum < 2 ^ 64 := by
    rw [toNat_totalLoad, hfits _ hnonneg]
  have hdeviations : ((loadStats os s).deviations.toNat : ℤ) =
      sumSq (loadStats os s).avgLoad.toNat (loadsOf s os) ↔
        sumSq (loadStats os s).avgLoad.toNat (loadsOf s os) < 2 ^ 64 := by
    rw [toNat_deviations, hfits _ (sumSq_nonneg _ _)]
  constructor
  · rintro ⟨ht, hd⟩
    rw [hdeviations, havg, ht] at hd
    exact ⟨htotal.1 ht, hd⟩
  · rintro ⟨ht, hd⟩
    refine ⟨htotal.2 ht, hdeviations.2 ?_⟩
    rwa [havg, htotal.2 ht]

/-! ### Loads of an interval -/

theorem length_loadsOf (s : State) (os : List ObjId) : (loadsOf s os).length = os.length := List.length_map _

/-- What an interval of `t` seconds and `n` objects leave room for. -/
def Headroom (t n : ℕ) : Prop := (n / 2) * ((n + 1) / 2) * (t * 10 ^ 9) ^ 2 < 2 ^ 64 * n

/-- There is room for a few seconds and a few objects only. -/
theorem Headroom.small {t n : ℕ} (ht : 1 ≤ t) (hn : 2 ≤ n) (h : Headroom t n) : t ≤ 6 ∧ n ≤ 73 := by
  have hhalves := halves_ge hn
  unfold Headroom at h
  generalize (n / 2) * ((n + 1) / 2) = halves at h hhalves
  constructor
  · by_contra hlarge
    have hsq : (7 * 10 ^ 9) ^ 2 ≤ (t * 10 ^ 9) ^ 2 := Nat.pow_le_pow_left (by omega) 2
    have hmul := Nat.mul_le_mul_left halves hsq
    omega
  · by_contra hlarge
    have hsq : (1 * 10 ^ 9) ^ 2 ≤ (t * 10 ^ 9) ^ 2 := Nat.pow_le_pow_left (by omega) 2
    have hmul := Nat.mul_le_mul_left halves hsq
    have hnn : 74 * n ≤ n * n := Nat.mul_le_mul_right n (by omega)
    omega

/-- Where there is room, the error of the mean has room as well. -/
theorem Headroom.error {t n : ℕ} (ht : 1 ≤ t) (hn : 2 ≤ n) (h : Headroom t n) :
    (n / 2) * ((n + 1) / 2) * (t * 10 ^ 9) ^ 2 + n ^ 2 < 2 ^ 64 * n := by
  obtain ⟨ht', hn'⟩ := h.small ht hn
  have hall : ∀ t ∈ List.range 7, ∀ n ∈ List.range 74, (n / 2) * ((n + 1) / 2) * (t * 10 ^ 9) ^ 2 < 2 ^ 64 * n →
      (n / 2) * ((n + 1) / 2) * (t * 10 ^ 9) ^ 2 + n ^ 2 < 2 ^ 64 * n := by
    decide +kernel
  exact hall t (List.mem_range.2 (by omega)) n (List.mem_range.2 (by omega)) h

/-- Loads that leave room are summed exactly. -/
theorem Headroom.statsExact {t n : ℕ} (ht : 1 ≤ t) (hn : 2 ≤ n) (h : Headroom t n) (hlength : os.length = n)
    (hload : ∀ o ∈ os, (s.objs o).load.toNat ≤ t * 10 ^ 9) : StatsExact s os := by
  obtain ⟨ht', hn'⟩ := h.small ht hn
  have hos : os ≠ [] := by
    rintro rfl
    rw [List.length_nil] at hlength
    omega
  have hne : loadsOf s os ≠ [] := by simpa [loadsOf] using hos
  have hbound : ∀ x ∈ loadsOf s os, 0 ≤ x ∧ x ≤ ((t * 10 ^ 9 : ℕ) : ℤ) := by
    intro x hx
    obtain ⟨o, ho, rfl⟩ := List.mem_map.1 hx
    exact ⟨Int.natCast_nonneg _, by exact_mod_cast hload o ho⟩
  rw [statsExact_iff_fits hos]
  have hmod : (os.length : ℤ) % 2 ^ 64 = n := by omega
  rw [hmod]
  constructor
  · have hsum := List.sum_le_card_nsmul (loadsOf s os) _ fun x hx => (hbound x hx).2
    rw [length_loadsOf, hlength, nsmul_eq_mul] at hsum
    have hprod : n * (t * 10 ^ 9) ≤ 73 * (6 * 10 ^ 9) := Nat.mul_le_mul hn' (by omega)
    have hcast : ((n : ℤ) * ((t * 10 ^ 9 : ℕ) : ℤ)) ≤ 73 * (6 * 10 ^ 9) := by exact_mod_cast hprod
    omega
  · have hlargest := length_mul_sumSq_le hne hbound ((loadsOf s os).sum / n)
    rw [length_loadsOf, hlength] at hlargest
    have hpos : (0 : ℤ) < n := by omega
    -- the error of the mean is a remainder
    have herror : ((loadsOf s os).sum - n * ((loadsOf s os).sum / n)) ^ 2 ≤ (n : ℤ) ^ 2 := by
      rw [← Int.emod_def]
      exact pow_le_pow_left₀ (Int.emod_nonneg _ hpos.ne') (Int.emod_lt_of_pos _ hpos).le 2
    have hroom : (((n / 2) * ((n + 1) / 2) * (t * 10 ^ 9) ^ 2 + n ^ 2 : ℕ) : ℤ) < ((2 ^ 64 * n : ℕ) : ℤ) := by
      exact_mod_cast h.error ht hn
    push_cast at hlargest hroom
    refine lt_of_mul_lt_mul_left (lt_of_le_of_lt hlargest ?_) hpos.le
    linarith [herror, hroom]

/-- Objects with the numbers below `n`: those of the first half idle, the others with the load `load`. -/
def halfLoaded (n : ℕ) (load : UInt64) : State :=
  { State.initial {} (fun _ => 0) with objs := fun o => { load := if o < n / 2 then 0 else load } }

theorem loadsOf_halfLoaded (n : ℕ) (load : UInt64) : loadsOf (halfLoaded n load) (List.range n) =
    List.replicate (n / 2) 0 ++ List.replicate ((n + 1) / 2) (load.toNat : ℤ) := by
  have hn : List.range n = List.range (n / 2) ++ (List.range ((n + 1) / 2)).map (n / 2 + ·) := by
    rw [← List.range_add]
    congr 1
    omega
  have hidle : loadsOf (halfLoaded n load) (List.range (n / 2)) = List.replicate (n / 2) 0 := by
    rw [List.eq_replicate_iff]
    refine ⟨by simp [loadsOf], fun x hx => ?_⟩
    obtain ⟨o, ho, rfl⟩ := List.mem_map.1 hx
    simp [halfLoaded, List.mem_range.1 ho]
  have hbusy : loadsOf (halfLoaded n load) ((List.range ((n + 1) / 2)).map (n / 2 + ·)) =
      List.replicate ((n + 1) / 2) (load.toNat : ℤ) := by
    rw [List.eq_replicate_iff]
    refine ⟨by simp [loadsOf], fun x hx => ?_⟩
    obtain ⟨o, ho, rfl⟩ := List.mem_map.1 hx
    obtain ⟨k, -, rfl⟩ := List.mem_map.1 ho
    simp [halfLoaded]
  rw [hn, loadsOf, List.map_append]
  exact congrArg₂ _ hidle hbusy

/-- Where there is no room, half of the objects idle and half of them busy make the sum too large. -/
theorem exists_not_statsExact {t n : ℕ} (hn : 2 ≤ n) (h : ¬Headroom t n) :
    ∃ load : UInt64, load.toNat ≤ t * 10 ^ 9 ∧ ¬StatsExact (halfLoaded n load) (List.range n) := by
  -- 7 s are enough for two objects
  obtain ⟨load, hload⟩ : ∃ load : UInt64, load.toNat = min t 7 * 10 ^ 9 :=
    ⟨UInt64.ofNat (min t 7 * 10 ^ 9), UInt64.toNat_ofNat_of_lt' (show _ < 2 ^ 64 by omega)⟩
  have hroom : 2 ^ 64 * n ≤ (n / 2) * ((n + 1) / 2) * load.toNat ^ 2 := by
    rw [hload]
    rcases Nat.le_total t 7 with hle | hge
    · rw [Nat.min_eq_left hle]
      exact Nat.le_of_not_lt h
    · have hhalves := (halves_ge hn).1
      rw [Nat.min_eq_right hge]
      omega
  refine ⟨load, by omega, fun hexact => ?_⟩
  have hsum := le_sumSq_halves (loadStats (List.range n) (halfLoaded n load)).avgLoad.toNat load.toNat
    (n / 2) ((n + 1) / 2)
  rw [← loadsOf_halfLoaded, ← hexact.deviations] at hsum
  have hlength : n / 2 + (n + 1) / 2 = n := by omega
  have hcast : (n / 2) * ((n + 1) / 2) * load.toNat ^ 2 ≤ (n / 2 + (n + 1) / 2) *
      (loadStats (List.range n) (halfLoaded n load)).deviations.toNat := by exact_mod_cast hsum
  have hlt := (loadStats (List.range n) (halfLoaded n load)).deviations.toNat_lt
  rw [hlength] at hcast
  have hmul := Nat.mul_lt_mul_of_pos_left hlt (show 0 < n by omega)
  omega

/-- **The sums of some loads are exact if and only if they fit. For an interval of `t` seconds and `n` objects they
are exact for all loads if and only if `⌊n / 2⌋ * ⌈n / 2⌉ * (t * 10 ^ 9) ^ 2 < 2 ^ 64 * n`.** -/
theorem statsExact_iff (s : State) (os : List ObjId) (t n : ℕ) (hos : os ≠ []) (ht : 1 ≤ t) (hn : 2 ≤ n) :
    (StatsExact s os ↔ (loadsOf s os).sum < 2 ^ 64 ∧
      sumSq ((loadsOf s os).sum / (os.length % 2 ^ 64)) (loadsOf s os) < 2 ^ 64) ∧
    ((∀ (u : State) (l : List ObjId), l.length = n → (∀ o ∈ l, (u.objs o).load.toNat ≤ t * 10 ^ 9) →
      StatsExact u l) ↔ Headroom t n) := by
  refine ⟨statsExact_iff_fits hos, fun hexact => ?_, fun h u l => h.statsExact ht hn⟩
  by_contra h
  obtain ⟨load, hload, hwraps⟩ := exists_not_statsExact hn h
  refine hwraps (hexact _ _ List.length_range fun o _ => ?_)
  simp only [halfLoaded]
  split_ifs
  · exact Nat.zero_le _
  · exact hload

/-- At an interval of 6 s, two cpus are summed exactly. -/
theorem statsExact_iff_sixSeconds : StatsExact (halfLoaded 2 6000000000) [0, 1] := by
  have hroom : Headroom 6 2 := by
    unfold Headroom
    decide
  have hexact := (statsExact_iff (halfLoaded 2 6000000000) [0, 1] 6 2 (List.cons_ne_nil _ _) (by decide)
    (by decide)).2.2 hroom
  exact hexact _ _ rfl (by decide)

example : (Headroom 1 73 ∧ ¬Headroom 1 74) ∧ (Headroom 2 18 ∧ ¬Headroom 2 19) ∧ (Headroom 5 3 ∧ ¬Headroom 5 4) ∧
    (Headroom 6 2 ∧ ¬Headroom 6 3) ∧ ¬Headroom 7 2 := by
  unfold Headroom
  decide

/-- At the default interval of 10 s a busy and an idle cpu are too far from each other. -/
theorem deviations_wrap : ¬ ∀ t : ℕ, 1 ≤ t → ∀ (s : State) (os : List ObjId), 2 ≤ os.length →
    (∀ o ∈ os, (s.objs o).load.toNat ≤ t * 10 ^ 9) → StatsExact s os := by
  intro h
  have hexact := h 10 (by decide) (halfLoaded 2 (10 ^ 10)) [0, 1] (by decide) (by decide)
  have hdeviations := hexact.deviations
  have hsum : sumSq (loadStats [0, 1] (halfLoaded 2 (10 ^ 10))).avgLoad.toNat
      (loadsOf (halfLoaded 2 (10 ^ 10)) [0, 1]) = 50000000000000000000 := by decide +kernel
  have hlt := (loadStats [0, 1] (halfLoaded 2 (10 ^ 10))).deviations.toNat_lt
  omega

end IrqBalance
