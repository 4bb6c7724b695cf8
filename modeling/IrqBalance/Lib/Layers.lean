import Mathlib.Data.Set.Insert
import Mathlib.Data.List.Nodup
import Mathlib.Logic.Function.Basic

/-!
# Containers found by key

Items `K` are put into containers `P`. A request `(k, m)` asks for the item `k` to stand in the
container whose key is `m`; the container is made when there is none, and the item is appended to its
list `kids` and given it as `parent`, unless the list has it already.

`IsLayer` describes what any sequence of requests leaves behind: the lists are exactly the requests
(`link`). Nothing stops two requests from putting one item into two containers. `IsLayer.forest_iff`
says that this does not happen if and only if the requests are functional.
-/

namespace Layers

variable {ι κ : Type*}

/-- The containers `P` hold the items `K` as the requests `link` demand. -/
structure IsLayer (key : ι → κ) (kids : ι → List ι) (parent : ι → Option ι) (P K : Set ι)
    (link : ι → κ → Prop) : Prop where
  key_inj : ∀ p ∈ P, ∀ q ∈ P, key p = key q → p = q
  found : ∀ k m, link k m → ∃ p ∈ P, key p = m
  mem_kids : ∀ p ∈ P, ∀ k, k ∈ kids p ↔ link k (key p)
  nodup : ∀ p ∈ P, (kids p).Nodup
  linked : ∀ k m, link k m → k ∈ K
  parent_mem : ∀ k ∈ K, ∃ p ∈ P, parent k = some p ∧ k ∈ kids p

variable {key : ι → κ} {kids : ι → List ι} {parent : ι → Option ι} {P K : Set ι}
variable {link : ι → κ → Prop}

theorem isLayer_empty (key : ι → κ) (kids : ι → List ι) (parent : ι → Option ι) :
    IsLayer key kids parent ∅ ∅ fun _ _ => False where
  key_inj := by simp
  found := by simp
  mem_kids := by simp
  nodup := by simp
  linked := by simp
  parent_mem := by simp

/-- Only the keys and lists of the containers and the parents of the items matter. -/
theorem IsLayer.congr (h : IsLayer key kids parent P K link) {key' : ι → κ} {kids' : ι → List ι}
    {parent' : ι → Option ι} {link' : ι → κ → Prop} (hkey : ∀ p ∈ P, key' p = key p)
    (hkids : ∀ p ∈ P, kids' p = kids p) (hparent : ∀ k ∈ K, parent' k = parent k)
    (hlink : ∀ k m, link' k m ↔ link k m) : IsLayer key' kids' parent' P K link' where
  key_inj p hp q hq e := h.key_inj p hp q hq (by rw [← hkey p hp, ← hkey q hq, e])
  found k m hkm := by
    obtain ⟨p, hp, e⟩ := h.found k m ((hlink k m).1 hkm)
    exact ⟨p, hp, by rw [hkey p hp, e]⟩
  mem_kids p hp k := by rw [hkids p hp, h.mem_kids p hp, hkey p hp, hlink]
  nodup p hp := by rw [hkids p hp]; exact h.nodup p hp
  linked k m hkm := h.linked k m ((hlink k m).1 hkm)
  parent_mem k hk := by
    obtain ⟨p, hp, e, hm⟩ := h.parent_mem k hk
    exact ⟨p, hp, by rw [hparent k hk, e], by rw [hkids p hp]; exact hm⟩

/-- Make an empty container for a key that has none. -/
theorem IsLayer.make (h : IsLayer key kids parent P K link) {p : ι} (hkids : kids p = [])
    (hnew : ∀ q ∈ P, key q ≠ key p) : IsLayer key kids parent (insert p P) K link where
  key_inj q hq r hr e := by
    rcases Set.mem_insert_iff.1 hq with hqp | hq <;> rcases Set.mem_insert_iff.1 hr with hrp | hr
    · rw [hqp, hrp]
    · exact absurd (hqp ▸ e).symm (hnew r hr)
    · exact absurd (hrp ▸ e) (hnew q hq)
    · exact h.key_inj q hq r hr e
  found k m hkm := by
    obtain ⟨q, hq, e⟩ := h.found k m hkm
    exact ⟨q, Set.mem_insert_of_mem p hq, e⟩
  mem_kids q hq k := by
    rcases Set.mem_insert_iff.1 hq with rfl | hq
    · -- a request for the new key would have found a container
      rw [hkids]
      refine ⟨fun hk => absurd hk List.not_mem_nil, fun hk => ?_⟩
      obtain ⟨r, hr, e⟩ := h.found k _ hk
      exact absurd e (hnew r hr)
    · exact h.mem_kids q hq k
  nodup q hq := by
    rcases Set.mem_insert_iff.1 hq with rfl | hq
    · rw [hkids]; exact List.nodup_nil
    · exact h.nodup q hq
  linked := h.linked
  parent_mem k hk := by
    obtain ⟨q, hq, e, hm⟩ := h.parent_mem k hk
    exact ⟨q, Set.mem_insert_of_mem p hq, e, hm⟩

section Link

variable [DecidableEq ι]

/-- Put the item `k` into the container `p`, whose list does not have it. -/
theorem IsLayer.link_new (h : IsLayer key kids parent P K link) {p k : ι} (hp : p ∈ P)
    (hk : k ∉ kids p) :
    IsLayer key (Function.update kids p (kids p ++ [k])) (Function.update parent k (some p)) P
      (insert k K) fun k' m => link k' m ∨ k' = k ∧ m = key p where
  key_inj := h.key_inj
  found k' m hkm := by
    rcases hkm with hkm | ⟨-, rfl⟩
    · exact h.found k' m hkm
    · exact ⟨p, hp, rfl⟩
  mem_kids q hq k' := by
    by_cases hqp : q = p
    · subst hqp; simp [h.mem_kids q hq]
    · have hne : key q ≠ key p := fun e => hqp (h.key_inj q hq p hp e)
      simp [hqp, hne, h.mem_kids q hq]
  nodup q hq := by
    by_cases hqp : q = p
    · subst hqp
      rw [Function.update_self]
      exact List.nodup_append.2 ⟨h.nodup q hq, by simp, by
        intro a ha b hb e
        rw [List.mem_singleton.1 hb] at e
        exact hk (e ▸ ha)⟩
    · rw [Function.update_of_ne hqp]; exact h.nodup q hq
  linked k' m hkm := by
    rcases hkm with hkm | ⟨rfl, -⟩
    · exact Set.mem_insert_of_mem k (h.linked k' m hkm)
    · exact Set.mem_insert k' K
  parent_mem k' hk' := by
    by_cases hkk : k' = k
    · subst hkk
      exact ⟨p, hp, by simp, by simp⟩
    · obtain ⟨q, hq, e, hm⟩ := h.parent_mem k' (Set.mem_of_mem_insert_of_ne hk' hkk)
      refine ⟨q, hq, by rw [Function.update_of_ne hkk, e], ?_⟩
      by_cases hqp : q = p
      · subst hqp; simp [hm]
      · rw [Function.update_of_ne hqp]; exact hm

omit [DecidableEq ι] in
/-- A request for an item that the container has already. -/
theorem IsLayer.link_old (h : IsLayer key kids parent P K link) {p k : ι} (hp : p ∈ P)
    (hk : k ∈ kids p) :
    IsLayer key kids parent P (insert k K) fun k' m => link k' m ∨ k' = k ∧ m = key p := by
  have hkp : link k (key p) := (h.mem_kids p hp k).1 hk
  rw [Set.insert_eq_of_mem (h.linked k _ hkp)]
  refine h.congr (fun _ _ => rfl) (fun _ _ => rfl) (fun _ _ => rfl) fun k' m => ?_
  refine ⟨fun hkm => ?_, Or.inl⟩
  rcases hkm with hkm | ⟨rfl, rfl⟩
  · exact hkm
  · exact hkp

end Link

/-- Every item stands in the list of exactly one container, once, and that is its parent. -/
def IsForest (kids : ι → List ι) (parent : ι → Option ι) (P K : Set ι) : Prop :=
  ∀ k ∈ K, ∃ p ∈ P, parent k = some p ∧ k ∈ kids p ∧ (kids p).Nodup ∧ ∀ q ∈ P, k ∈ kids q → q = p

/-- **The containers partition the items if and only if no item was requested for two keys.** -/
theorem IsLayer.forest_iff (h : IsLayer key kids parent P K link) :
    IsForest kids parent P K ↔ ∀ k m m', link k m → link k m' → m = m' := by
  constructor
  · intro hf k m m' hm hm'
    obtain ⟨p, -, -, -, -, huniq⟩ := hf k (h.linked k m hm)
    obtain ⟨q, hq, rfl⟩ := h.found k m hm
    obtain ⟨r, hr, rfl⟩ := h.found k m' hm'
    have hqp : q = p := huniq q hq ((h.mem_kids q hq k).2 hm)
    have hrp : r = p := huniq r hr ((h.mem_kids r hr k).2 hm')
    rw [hqp, hrp]
  · intro hfun k hk
    obtain ⟨p, hp, e, hm⟩ := h.parent_mem k hk
    refine ⟨p, hp, e, hm, h.nodup p hp, fun q hq hq' => ?_⟩
    have hkq : link k (key q) := (h.mem_kids q hq k).1 hq'
    have hkp : link k (key p) := (h.mem_kids p hp k).1 hm
    exact h.key_inj q hq p hp (hfun k _ _ hkq hkp)

/-- Two containers share no item. -/
theorem IsForest.eq_of_mem_kids (h : IsForest kids parent P K) (hsub : ∀ p ∈ P, ∀ k ∈ kids p, k ∈ K) {p q k : ι}
    (hp : p ∈ P) (hq : q ∈ P) (hk : k ∈ kids p) (hk' : k ∈ kids q) : p = q := by
  obtain ⟨r, -, -, -, -, huniq⟩ := h k (hsub p hp k hk)
  exact (huniq p hp hk).trans (huniq q hq hk').symm

/-- The items of some containers are listed without repetition. -/
theorem IsForest.flatMap_nodup (h : IsForest kids parent P K) (hsub : ∀ p ∈ P, ∀ k ∈ kids p, k ∈ K)
    {l : List ι} (hl : l.Nodup) (hP : ∀ p ∈ l, p ∈ P) : (l.flatMap kids).Nodup := by
  have hhome : ∀ p ∈ P, ∀ k ∈ kids p, (kids p).Nodup ∧ ∀ q ∈ P, k ∈ kids q → q = p := by
    intro p hp k hk
    obtain ⟨r, hr, -, -, hnd, huniq⟩ := h k (hsub p hp k hk)
    have hpr : p = r := huniq p hp hk
    exact hpr ▸ ⟨hnd, huniq⟩
  refine List.nodup_flatMap.2 ⟨fun p hp => ?_, hl.imp_of_mem fun {p q} hp hq hne => ?_⟩
  · cases hk : kids p with
    | nil => exact List.nodup_nil
    | cons k ks =>
      rw [← hk]
      exact (hhome p (hP p hp) k (by simp [hk])).1
  · intro k hkp hkq
    exact hne ((hhome q (hP q hq) k hkq).2 p (hP p hp) hkp)

theorem IsForest.kids_nodup (h : IsForest kids parent P K) (hsub : ∀ p ∈ P, ∀ k ∈ kids p, k ∈ K) {p : ι}
    (hp : p ∈ P) : (kids p).Nodup := by
  have hnd := h.flatMap_nodup hsub (List.nodup_singleton p) (by simpa using hp)
  simpa using hnd

end Layers
