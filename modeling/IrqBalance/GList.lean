import Mathlib.Data.Int.Notation
import IrqBalance.Lib.LinkedList
import IrqBalance.Lib.MergeSort

/-!
# `glist.c`: sorting in place

`g_list_sort` cuts the list in two by its `next` links, sorts both parts and merges them by writing `next` and
`prev` of the nodes. It does to the memory what `MergeSort.sort` does to the list of the nodes
(`gListSort_spec`). In a part that has been cut off the first node still points back to where it stood; the
merge mends that.

The loops and recursions have a bound on their length; NULL is never dereferenced below it.
-/

namespace IrqBalance

open LinkedList (Links Seg Back IsList)
open MergeSort (merge)

variable {ν : Type} [DecidableEq ν]

/-! ### The source -/

/-- The local variables of `g_list_sort_merge`. The pointer `l` is `&list` at first, for which `none` stands;
`first` is `list.next`. -/
structure SortMerge (ν : Type) where
  h : Links ν
  l1 : Option ν
  l2 : Option ν
  first : Option ν := none
  l : Option ν := none
  lprev : Option ν := none

/-- `l->next = p`. -/
def SortMerge.setNext (v : SortMerge ν) (p : Option ν) : SortMerge ν :=
  match v.l with
  | none => { v with first := p }
  | some l => { v with h := v.h.setNext l p }

/-- The loop of `g_list_sort_merge`. -/
def sortMergeLoop (compareFunc : ν → ν → ℤ) : ℕ → SortMerge ν → Option (SortMerge ν)
  | 0, _ => none
  | n + 1, v =>
    match v.l1, v.l2 with
    | some x, some y =>
      let v := if compareFunc x y ≤ 0 then
          let v := v.setNext (some x)
          { v with l1 := v.h.next x, l := some x }
        else
          let v := v.setNext (some y)
          { v with l2 := v.h.next y, l := some y }
      -- `l` is a node here
      let v := v.l.elim v fun l => { v with h := v.h.setPrev l v.lprev, lprev := some l }
      sortMergeLoop compareFunc n v
    | _, _ => some v

/-- The end of `g_list_sort_merge`. Two empty lists would dereference NULL, and one would leave a pointer to
the local variable `list` behind. -/
def SortMerge.finish (v : SortMerge ν) : Option (Links ν × Option ν) :=
  let rest := v.l1.or v.l2
  let v := v.setNext rest
  match rest, v.l with
  | some r, some l => some (v.h.setPrev r (some l), v.first)
  | _, _ => none

/-- `g_list_sort_merge`. -/
def gListSortMerge (compareFunc : ν → ν → ℤ) (n : ℕ) (h : Links ν) (l1 l2 : Option ν) :
    Option (Links ν × Option ν) :=
  (sortMergeLoop compareFunc n { h := h, l1 := l1, l2 := l2 }).bind SortMerge.finish

/-- The loop of `g_list_sort_real`: `l1` goes one node ahead when `l2` goes two. -/
def sortSplitLoop (next : ν → Option ν) : ℕ → ν → ν → Option ν
  | 0, _, _ => none
  | n + 1, l1, l2 =>
    match next l2 with
    | none => some l1
    | some l2 =>
      match next l2 with
      | none => some l1
      | some l2 =>
        match next l1 with
        | none => none
        | some l1 => sortSplitLoop next n l1 l2

/-- `g_list_sort_real`. -/
def gListSortReal (compareFunc : ν → ν → ℤ) : ℕ → Links ν → Option ν → Option (Links ν × Option ν)
  | 0, _, _ => none
  | n + 1, h, list =>
    match list with
    | none => some (h, none)
    | some x =>
      match h.next x with
      | none => some (h, some x)
      | some y => do
        let l1 ← sortSplitLoop h.next n x y
        let l2 := h.next l1
        let h := h.setNext l1 none
        -- C leaves the order of the two calls open; they have no node in common
        let (h, a) ← gListSortReal compareFunc n h (some x)
        let (h, b) ← gListSortReal compareFunc n h l2
        gListSortMerge compareFunc (n + 1) h a b

/-- `g_list_sort`. -/
def gListSort (compareFunc : ν → ν → ℤ) (n : ℕ) (h : Links ν) (list : Option ν) : Option (Links ν × Option ν) :=
  gListSortReal compareFunc n h list

/-! ### Merging -/

/-- Take the node `x` next. -/
def SortMerge.take (v : SortMerge ν) (x : ν) : SortMerge ν :=
  { v.setNext (some x) with
    h := (v.setNext (some x)).h.setPrev x (v.setNext (some x)).lprev, l := some x, lprev := some x }

variable {v : SortMerge ν} {m xs ys zs l : List ν} {x : ν} {p b : Option ν} {n : ℕ} {h : Links ν}
variable {compareFunc : ν → ν → ℤ}

@[simp] theorem setNext_l1 : (v.setNext p).l1 = v.l1 := by unfold SortMerge.setNext; split <;> rfl
@[simp] theorem setNext_l2 : (v.setNext p).l2 = v.l2 := by unfold SortMerge.setNext; split <;> rfl
@[simp] theorem setNext_l : (v.setNext p).l = v.l := by unfold SortMerge.setNext; split <;> simp [*]
@[simp] theorem setNext_lprev : (v.setNext p).lprev = v.lprev := by unfold SortMerge.setNext; split <;> rfl
@[simp] theorem setNext_prev : (v.setNext p).h.prev = v.h.prev := by unfold SortMerge.setNext; split <;> rfl

/-- The nodes `m` have been merged. What the last of them points to is still open. -/
structure Merged (v : SortMerge ν) (m : List ν) : Prop where
  nodup : m.Nodup
  seg : ∃ q, Seg v.h.next v.first m q
  back : Back v.h.prev none m
  last : v.l = m.getLast?
  lprev : v.lprev = m.getLast?

/-- `l->next = p` closes the list that has been merged. -/
theorem Merged.setNext (hv : Merged v m) (p : Option ν) : Seg (v.setNext p).h.next (v.setNext p).first m p ∧
    ∀ z ∉ m, (v.setNext p).h.next z = v.h.next z := by
  have hlast := hv.last
  obtain ⟨q, hseg⟩ := hv.seg
  unfold SortMerge.setNext
  rcases List.eq_nil_or_concat m with rfl | ⟨m, y, rfl⟩
  · rw [hlast]
    exact ⟨rfl, fun _ _ => rfl⟩
  · have hnodup := hv.nodup
    rw [List.concat_eq_append] at *
    rw [List.getLast?_concat] at hlast
    rw [hlast]
    refine ⟨hseg.setNext (List.nodup_cons.1 (List.nodup_append_comm.1 hnodup)).1 p, fun z hz => ?_⟩
    exact Function.update_of_ne (fun e => hz (by simp [e])) _ _

/-- The node `x` is taken next. -/
theorem Merged.take (hv : Merged v m) (hx : x ∉ m) : Merged (v.take x) (m ++ [x]) := by
  obtain ⟨hseg, -⟩ := hv.setNext (some x)
  refine ⟨List.nodup_append_comm.1 (List.nodup_cons.2 ⟨hx, hv.nodup⟩), ⟨_, LinkedList.seg_append_cons.2 ⟨hseg, rfl⟩⟩,
    ?_, (List.getLast?_concat ..).symm, (List.getLast?_concat ..).symm⟩
  refine Back.concat (hv.back.congr fun y hy => ?_) ?_
  · exact (Function.update_of_ne (ne_of_mem_of_not_mem hy hx) _ _).trans (congrFun setNext_prev y)
  · exact (Function.update_self ..).trans (setNext_lprev.trans hv.lprev)

/-- Taking a node writes to it, and to the one taken before. -/
theorem Merged.take_frame (hv : Merged v m) {z : ν} (hz : z ∉ m) (hne : z ≠ x) :
    (v.take x).h.next z = v.h.next z ∧ (v.take x).h.prev z = v.h.prev z :=
  ⟨(hv.setNext (some x)).2 z hz, (Function.update_of_ne hne _ _).trans (congrFun setNext_prev z)⟩

/-- The nodes outside of the lists keep their links. -/
def Frame (h h' : Links ν) (l : List ν) : Prop := ∀ z ∉ l, h'.next z = h.next z ∧ h'.prev z = h.prev z

omit [DecidableEq ν] in
theorem Frame.trans {h h' h'' : Links ν} {l l' : List ν} (hf : Frame h h' l) (hf' : Frame h' h'' l')
    (hsub : ∀ z ∈ l', z ∈ l) : Frame h h'' l := fun z hz =>
  have hz' : z ∉ l' := fun hz' => hz (hsub z hz')
  ⟨(hf' z hz').1.trans (hf z hz).1, (hf' z hz').2.trans (hf z hz).2⟩

/-- The end of the merge, when one list is used up. -/
theorem SortMerge.finish_spec (hv : Merged v m) (hm : m ≠ []) (hz : zs ≠ [])
    (hseg : Seg v.h.next (v.l1.or v.l2) zs none) (hback : Back v.h.prev b zs) (hnodup : (m ++ zs).Nodup) :
    ∃ r, v.finish = some r ∧ Seg r.1.next r.2 (m ++ zs) none ∧ Back r.1.prev none (m ++ zs) ∧
      Frame v.h r.1 (m ++ zs) := by
  obtain ⟨m, y, rfl⟩ := (List.eq_nil_or_concat m).resolve_left hm
  obtain ⟨z, zs, rfl⟩ := List.exists_cons_of_ne_nil hz
  rw [List.concat_eq_append] at *
  have hlast : v.l = some y := hv.last.trans (List.getLast?_concat ..)
  obtain ⟨e, hzs⟩ := hseg
  obtain ⟨hclosed, hframe⟩ := hv.setNext (some z)
  have hdisj := List.disjoint_of_nodup_append hnodup
  have hnodup' := List.nodup_cons.1 (List.nodup_append.1 hnodup).2.1
  refine ⟨((v.setNext (some z)).h.setPrev z (some y), (v.setNext (some z)).first), ?_, ?_, ?_, fun w hw => ?_⟩
  · unfold SortMerge.finish
    dsimp only
    rw [e, setNext_l, hlast]
  · rw [LinkedList.seg_append_cons]
    refine ⟨hclosed, ?_⟩
    change Seg (v.setNext (some z)).h.next ((v.setNext (some z)).h.next z) zs none
    rw [hframe z fun hz => hdisj hz List.mem_cons_self]
    exact hzs.congr fun w hw => hframe w fun hw' => hdisj hw' (List.mem_cons_of_mem z hw)
  · rw [List.append_assoc]
    refine LinkedList.back_append_cons.2 ⟨hv.back.congr fun w hw => ?_, ?_⟩
    · have hne : w ≠ z := fun e => hdisj hw (e ▸ List.mem_cons_self)
      exact (Function.update_of_ne hne _ _).trans (congrFun setNext_prev w)
    · refine (Back.congr hback fun w _ => congrFun setNext_prev w).setPrev hnodup'.1 (some y)
  · rw [List.mem_append, not_or] at hw
    have hne : w ≠ z := fun e => hw.2 (e ▸ List.mem_cons_self)
    exact ⟨hframe w hw.1, (Function.update_of_ne hne _ _).trans (congrFun setNext_prev w)⟩

/-- The invariant of the loop: `m` has been merged, and `xs` and `ys` are left. -/
structure Merging (v : SortMerge ν) (m xs ys : List ν) : Prop extends Merged v m where
  left : Seg v.h.next v.l1 xs none
  right : Seg v.h.next v.l2 ys none
  leftBack : ∃ b, Back v.h.prev b xs
  rightBack : ∃ b, Back v.h.prev b ys
  distinct : (m ++ (xs ++ ys)).Nodup
  started : m = [] → xs ≠ [] ∧ ys ≠ []
  rest : xs = [] → ys ≠ []

/-- One node is taken, and the lists become `xs'` and `ys'`. -/
theorem Merging.take {w : SortMerge ν} {z : ν} {xs' ys' : List ν} (hv : Merging v m xs ys)
    (hperm : (z :: (xs' ++ ys')).Perm (xs ++ ys)) (hh : w.h = (v.take z).h) (hfirst : w.first = (v.take z).first)
    (hl : w.l = some z) (hlprev : w.lprev = some z) (hleft : Seg v.h.next w.l1 xs' none)
    (hright : Seg v.h.next w.l2 ys' none) (hleftBack : ∃ b, Back v.h.prev b xs')
    (hrightBack : ∃ b, Back v.h.prev b ys') (hrest : xs' = [] → ys' ≠ []) :
    Merging w (m ++ [z]) xs' ys' ∧ Frame v.h w.h (m ++ (xs ++ ys)) := by
  have hnodup : (m ++ (z :: (xs' ++ ys'))).Nodup := (hperm.append_left m).nodup_iff.2 hv.distinct
  have hdisj := List.disjoint_of_nodup_append hnodup
  have hz : z ∉ m := fun hz => hdisj hz List.mem_cons_self
  have hzs : z ∉ xs' ++ ys' := (List.nodup_cons.1 (List.nodup_append.1 hnodup).2.1).1
  have hkeep : ∀ u ∈ xs' ++ ys', w.h.next u = v.h.next u ∧ w.h.prev u = v.h.prev u := fun u hu => by
    rw [hh]
    exact hv.take_frame (fun hu' => hdisj hu' (List.mem_cons_of_mem z hu)) (ne_of_mem_of_not_mem hu hzs)
  have hmerged := hv.toMerged.take hz
  refine ⟨?_, fun u hu => ?_⟩
  · exact {
      nodup := hmerged.nodup
      seg := by rw [hh, hfirst]; exact hmerged.seg
      back := by rw [hh]; exact hmerged.back
      last := hl.trans hmerged.last
      lprev := hlprev.trans hmerged.lprev
      left := hleft.congr fun u hu => (hkeep u (List.mem_append_left _ hu)).1
      right := hright.congr fun u hu => (hkeep u (List.mem_append_right _ hu)).1
      leftBack := hleftBack.imp fun b hb => hb.congr fun u hu => (hkeep u (List.mem_append_left _ hu)).2
      rightBack := hrightBack.imp fun b hb => hb.congr fun u hu => (hkeep u (List.mem_append_right _ hu)).2
      distinct := by rw [List.append_assoc]; exact hnodup
      started := fun e => absurd e (by simp)
      rest := hrest }
  · rw [List.mem_append, ← hperm.mem_iff, not_or, List.mem_cons, not_or] at hu
    rw [hh]
    exact hv.take_frame hu.1 hu.2.1

/-- **The loop merges what is left of the two lists behind what has been merged.** -/
theorem Merging.finish (hv : Merging v m xs ys) (hn : xs.length + ys.length < n) :
    ∃ r, (sortMergeLoop compareFunc n v).bind SortMerge.finish = some r ∧
      Seg r.1.next r.2 (m ++ merge (fun x y => compareFunc x y ≤ 0) xs ys) none ∧
      Back r.1.prev none (m ++ merge (fun x y => compareFunc x y ≤ 0) xs ys) ∧
      Frame v.h r.1 (m ++ (xs ++ ys)) := by
  induction n generalizing v m xs ys with
  | zero => exact absurd hn (Nat.not_lt_zero _)
  | succ n ih =>
    obtain ⟨b₁, hb₁⟩ := hv.leftBack
    obtain ⟨b₂, hb₂⟩ := hv.rightBack
    have hleft := hv.left
    have hright := hv.right
    have hdistinct := hv.distinct
    rw [sortMergeLoop]
    cases xs with
    | nil =>
      have e : v.l1 = none := hleft
      rw [e]
      exact SortMerge.finish_spec hv.toMerged (fun hm => (hv.started hm).1 rfl) (hv.rest rfl)
        (by rw [e]; exact hright) hb₂ hdistinct
    | cons x xs =>
      cases ys with
      | nil =>
        have e : v.l2 = none := hright
        rw [List.append_nil] at hdistinct ⊢
        rw [e, hleft.1, MergeSort.merge_nil_right]
        exact SortMerge.finish_spec hv.toMerged (fun hm => (hv.started hm).2 rfl) (List.cons_ne_nil x xs)
          (by rw [e, Option.or_none]; exact hleft) hb₁ hdistinct
      | cons y ys =>
        have hrun : ∀ {w z xs' ys'}, Merging w (m ++ [z]) xs' ys' ∧ Frame v.h w.h (m ++ (x :: xs ++ y :: ys)) →
            (z :: (xs' ++ ys')).Perm (x :: xs ++ y :: ys) →
            ∃ r, (sortMergeLoop compareFunc n w).bind SortMerge.finish = some r ∧
              Seg r.1.next r.2 (m ++ z :: merge (fun x y => compareFunc x y ≤ 0) xs' ys') none ∧
              Back r.1.prev none (m ++ z :: merge (fun x y => compareFunc x y ≤ 0) xs' ys') ∧
              Frame v.h r.1 (m ++ (x :: xs ++ y :: ys)) := by
          intro w z xs' ys' ⟨hw, hframe⟩ hperm
          have hlength := hperm.length_eq
          obtain ⟨r, hr, hseg, hback, hframe'⟩ := ih hw (by
            simp only [List.length_cons, List.length_append] at hlength hn
            omega)
          rw [List.append_assoc] at hseg hback hframe'
          exact ⟨r, hr, hseg, hback, hframe.trans hframe' fun u hu => (hperm.append_left m).mem_iff.1 hu⟩
        have hx : x ∉ m := fun hx => (List.disjoint_of_nodup_append hdistinct) hx (by simp)
        have hy : y ∉ m := fun hy => (List.disjoint_of_nodup_append hdistinct) hy (by simp)
        have hnext : ∀ {z u}, u ∉ m → (v.setNext (some z)).h.next u = v.h.next u := fun hu =>
          (hv.toMerged.setNext _).2 _ hu
        rw [hleft.1, hright.1, MergeSort.merge_cons_cons]
        dsimp only
        by_cases hcmp : compareFunc x y ≤ 0
        · rw [if_pos hcmp, if_pos (decide_eq_true hcmp)]
          refine hrun (hv.take (List.Perm.refl _) rfl rfl rfl rfl ?_ ?_ ⟨_, hb₁.2⟩ ⟨b₂, hb₂⟩
            fun _ => List.cons_ne_nil y ys) (List.Perm.refl _)
          · change Seg v.h.next ((v.setNext (some x)).h.next x) xs none
            rw [hnext hx]
            exact hleft.2
          · change Seg v.h.next (v.setNext (some x)).l2 (y :: ys) none
            rw [setNext_l2]
            exact hright
        · have hperm : (y :: (x :: xs ++ ys)).Perm (x :: xs ++ y :: ys) := List.perm_middle.symm
          rw [if_neg hcmp, if_neg (by simpa using hcmp)]
          refine hrun (hv.take hperm rfl rfl rfl rfl ?_ ?_ ⟨b₁, hb₁⟩ ⟨_, hb₂.2⟩
            fun e => absurd e (List.cons_ne_nil x xs)) hperm
          · change Seg v.h.next (v.setNext (some y)).l1 (x :: xs) none
            rw [setNext_l1]
            exact hleft
          · change Seg v.h.next ((v.setNext (some y)).h.next y) ys none
            rw [hnext hy]
            exact hright.2

/-- **`g_list_sort_merge` merges two lists**, and mends their `prev` links. -/
theorem gListSortMerge_spec (compareFunc : ν → ν → ℤ) {l1 l2 b₁ b₂ : Option ν}
    (hs₁ : Seg h.next l1 xs none) (hs₂ : Seg h.next l2 ys none) (hb₁ : Back h.prev b₁ xs) (hb₂ : Back h.prev b₂ ys)
    (hdistinct : (xs ++ ys).Nodup) (hxs : xs ≠ []) (hys : ys ≠ [])
    (hn : xs.length + ys.length < n) : ∃ r, gListSortMerge compareFunc n h l1 l2 = some r ∧
      Seg r.1.next r.2 (merge (fun x y => compareFunc x y ≤ 0) xs ys) none ∧
      Back r.1.prev none (merge (fun x y => compareFunc x y ≤ 0) xs ys) ∧ Frame h r.1 (xs ++ ys) := by
  have hstart : Merging { h := h, l1 := l1, l2 := l2 } [] xs ys := {
    nodup := List.nodup_nil
    seg := ⟨none, rfl⟩
    back := trivial
    last := rfl
    lprev := rfl
    left := hs₁
    right := hs₂
    leftBack := ⟨b₁, hb₁⟩
    rightBack := ⟨b₂, hb₂⟩
    distinct := hdistinct
    started := fun _ => ⟨hxs, hys⟩
    rest := fun _ => hys }
  exact hstart.finish hn

/-! ### Splitting and sorting -/

/-- The loop ends with `l1` at the end of the first half. -/
theorem sortSplitLoop_spec {next : ν → Option ν} {i : ℕ} {y : ν} (hs : Seg next p l none) (hx : l[i]? = some x)
    (hy : l[2 * i + 1]? = some y) (hn : l.length ≤ n + i) :
    ∃ z, sortSplitLoop next n x y = some z ∧ l[l.length / 2 - 1]? = some z := by
  have hlen : 2 * i + 1 < l.length := (List.getElem?_eq_some_iff.1 hy).1
  induction n generalizing i x y with
  | zero => omega
  | succ n ih =>
    rw [sortSplitLoop, hs.next_getElem? hy]
    cases h₁ : l[2 * i + 1 + 1]? with
    | none =>
      have hend := List.getElem?_eq_none_iff.1 h₁
      have hhalf : l.length / 2 - 1 = i := by omega
      exact ⟨x, rfl, hhalf.symm ▸ hx⟩
    | some y₁ =>
      have hlen₁ := (List.getElem?_eq_some_iff.1 h₁).1
      dsimp only
      rw [hs.next_getElem? h₁]
      cases h₂ : l[2 * i + 1 + 1 + 1]? with
      | none =>
        have hend := List.getElem?_eq_none_iff.1 h₂
        have hhalf : l.length / 2 - 1 = i := by omega
        exact ⟨x, rfl, hhalf.symm ▸ hx⟩
      | some y₂ =>
        have hlen₂ := (List.getElem?_eq_some_iff.1 h₂).1
        have hx' : l[i + 1]? = some l[i + 1] := List.getElem?_eq_getElem (by omega)
        dsimp only
        rw [hs.next_getElem? hx, hx']
        exact ih hx' h₂ (by omega) (by omega)

/-- The list is cut in two behind the node that the loop has found. -/
theorem cut_spec {z : ν} {k : ℕ} (hs : Seg h.next p l none) (hb : Back h.prev b l) (hdistinct : l.Nodup)
    (hz : l[k]? = some z) : Seg (h.setNext z none).next p (l.take (k + 1)) none ∧
      Seg (h.setNext z none).next (h.next z) (l.drop (k + 1)) none ∧ Back h.prev b (l.take (k + 1)) ∧
      (∃ b', Back h.prev b' (l.drop (k + 1))) ∧ Frame h (h.setNext z none) l := by
  have htake : l.take (k + 1) = l.take k ++ [z] := by rw [List.take_add_one, hz]; rfl
  have hsplit : l = l.take k ++ z :: l.drop (k + 1) := by
    rw [List.append_cons, ← htake, List.take_append_drop]
  have hdistinct' := hdistinct
  rw [hsplit] at hs hb hdistinct'
  have hbefore : z ∉ l.take k := fun hz => List.disjoint_of_nodup_append hdistinct' hz List.mem_cons_self
  have hbehind : z ∉ l.drop (k + 1) := (List.nodup_cons.1 (List.nodup_append.1 hdistinct').2.1).1
  obtain ⟨hfirst, hsecond⟩ := LinkedList.seg_append_cons.1 hs
  rw [htake]
  refine ⟨?_, ?_, ?_, ?_, fun w hw => ⟨?_, rfl⟩⟩
  · exact Seg.setNext (LinkedList.seg_append_cons.2 ⟨hfirst, rfl⟩) hbefore none
  · exact hsecond.congr fun w hw => Function.update_of_ne (ne_of_mem_of_not_mem hw hbehind) _ _
  · exact (LinkedList.back_append_cons.1 hb).1
  · exact ⟨_, (LinkedList.back_append_cons.1 hb).2⟩
  · refine Function.update_of_ne (fun e => hw ?_) _ _
    rw [e, hsplit]
    simp

/-- **`g_list_sort_real` sorts the nodes.** The first node of a list with one node keeps its `prev`. -/
theorem gListSortReal_spec (compareFunc : ν → ν → ℤ) (hs : Seg h.next p l none) (hb : Back h.prev b l)
    (hdistinct : l.Nodup) (hn : l.length < n) : ∃ r, gListSortReal compareFunc n h p = some r ∧
      Seg r.1.next r.2 (MergeSort.sortFrom (fun x y => compareFunc x y ≤ 0) n l) none ∧
      Back r.1.prev (if l.length < 2 then b else none) (MergeSort.sortFrom (fun x y => compareFunc x y ≤ 0) n l) ∧
      Frame h r.1 l := by
  induction n generalizing h p b l with
  | zero => exact absurd hn (Nat.not_lt_zero _)
  | succ n ih =>
    rw [MergeSort.sortFrom]
    rcases l with _ | ⟨x, _ | ⟨y, l⟩⟩
    · cases hs
      exact ⟨(h, none), by rw [gListSortReal], rfl, trivial, fun _ _ => ⟨rfl, rfl⟩⟩
    · obtain ⟨rfl, hnone⟩ := hs
      have hnone' : h.next x = none := hnone
      refine ⟨(h, some x), ?_, ⟨rfl, hnone⟩, hb, fun _ _ => ⟨rfl, rfl⟩⟩
      rw [gListSortReal, hnone']
    · have hxy : h.next x = some y := hs.2.1
      have hp : p = some x := hs.1
      subst hp
      have hlong : ¬(x :: y :: l).length < 2 := by simp
      rw [if_neg hlong, if_neg hlong, gListSortReal, hxy]
      dsimp only
      obtain ⟨z, hz, hat⟩ := sortSplitLoop_spec (i := 0) hs rfl rfl (Nat.le_of_lt_succ hn)
      have hhalf : (x :: y :: l).length / 2 - 1 + 1 = (x :: y :: l).length / 2 := by
        simp only [List.length_cons]
        omega
      obtain ⟨hs₁, hs₂, hb₁, ⟨b', hb₂⟩, hcut⟩ := cut_spec hs hb hdistinct hat
      rw [hhalf] at hs₁ hs₂ hb₁ hb₂
      generalize hk : (x :: y :: l).length / 2 = k at *
      have hk' : 0 < k ∧ k < (x :: y :: l).length := by
        simp only [List.length_cons] at hk ⊢
        omega
      generalize x :: y :: l = xs at *
      have hdistinct' : (xs.take k ++ xs.drop k).Nodup := by rwa [List.take_append_drop]
      have hdisj := List.disjoint_of_nodup_append hdistinct'
      have hsub₁ : ∀ w ∈ xs.take k, w ∈ xs := fun _ => List.mem_of_mem_take
      have hsub₂ : ∀ w ∈ xs.drop k, w ∈ xs := fun _ => List.mem_of_mem_drop
      have hlen₁ : (xs.take k).length = k := List.length_take_of_le (Nat.le_of_lt hk'.2)
      have hlen₂ : (xs.drop k).length = xs.length - k := List.length_drop
      obtain ⟨⟨h₁, a⟩, hr₁, hseg₁, hback₁, hframe₁⟩ := ih hs₁ hb₁ (List.nodup_append.1 hdistinct').1 (by omega)
      -- sorting the first half does not touch the second one
      obtain ⟨⟨h₂, b₂⟩, hr₂, hseg₂, hback₂, hframe₂⟩ := ih
        (hs₂.congr fun w hw => (hframe₁ w fun hw' => hdisj hw' hw).1)
        (hb₂.congr fun w hw => (hframe₁ w fun hw' => hdisj hw' hw).2) (List.nodup_append.1 hdistinct').2.1 (by omega)
      have hperm₁ := MergeSort.sortFrom_perm (fun x y => compareFunc x y ≤ 0) n (xs.take k)
      have hperm₂ := MergeSort.sortFrom_perm (fun x y => compareFunc x y ≤ 0) n (xs.drop k)
      have hperm := hperm₁.append hperm₂
      rw [List.take_append_drop] at hperm
      have hkeep : ∀ w ∈ MergeSort.sortFrom (fun x y => compareFunc x y ≤ 0) n (xs.take k), w ∉ xs.drop k :=
        fun w hw hw' => hdisj (hperm₁.mem_iff.1 hw) hw'
      obtain ⟨r, hr, hseg, hback, hframe⟩ := gListSortMerge_spec compareFunc (n := n + 1)
        (hseg₁.congr fun w hw => (hframe₂ w (hkeep w hw)).1) hseg₂
        (hback₁.congr fun w hw => (hframe₂ w (hkeep w hw)).2) hback₂ (hperm.nodup_iff.2 hdistinct)
        (fun e => by rw [e] at hperm₁; have := hperm₁.length_eq; simp only [List.length_nil] at this; omega)
        (fun e => by rw [e] at hperm₂; have := hperm₂.length_eq; simp only [List.length_nil] at this; omega)
        (by rw [hperm₁.length_eq, hperm₂.length_eq]; omega)
      refine ⟨r, ?_, hseg, hback, ?_⟩
      · simp only [hz, hr₁, hr₂, Option.bind_eq_bind, Option.bind_some, hr]
      · exact ((hcut.trans hframe₁ hsub₁).trans hframe₂ hsub₂).trans hframe fun w hw => hperm.mem_iff.1 hw

/-- **`g_list_sort` turns a list into the sorted list**, with links in both directions. -/
theorem gListSort_spec (compareFunc : ν → ν → ℤ) (hl : IsList h p l) (hn : l.length < n) :
    ∃ r, gListSort compareFunc n h p = some r ∧
    IsList r.1 r.2 (MergeSort.sort (fun x y => compareFunc x y ≤ 0) l) ∧ Frame h r.1 l := by
  obtain ⟨r, hr, hseg, hback, hframe⟩ := gListSortReal_spec compareFunc hl.seg hl.back hl.nodup hn
  rw [ite_self, MergeSort.sortFrom_eq_sort _ (Nat.le_of_lt hn)] at *
  exact ⟨r, hr, ⟨(MergeSort.sort_perm _ l).nodup_iff.2 hl.nodup, hseg, hback⟩, hframe⟩

end IrqBalance
