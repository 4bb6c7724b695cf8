import Mathlib.Data.List.Nodup
import Mathlib.Logic.Function.Basic

/-!
# Doubly linked lists in memory

`next` and `prev` of the nodes, as functions of their addresses; `none` is NULL. `Seg` follows `next`, `Back`
checks `prev`, and `IsList` is a list that ends with NULL in both directions. Writing to nodes that a list does
not have leaves it as it is (`Seg.congr`, `Back.congr`).
-/

namespace LinkedList

/-- The links of all nodes. -/
structure Links (ν : Type*) where
  next : ν → Option ν
  prev : ν → Option ν

section Writes

variable {ν : Type*} [DecidableEq ν]

/-- `x->next = p`. -/
def Links.setNext (h : Links ν) (x : ν) (p : Option ν) : Links ν := { h with next := Function.update h.next x p }

/-- `x->prev = p`. -/
def Links.setPrev (h : Links ν) (x : ν) (p : Option ν) : Links ν := { h with prev := Function.update h.prev x p }

@[simp] theorem setNext_prev (h : Links ν) (x : ν) (p : Option ν) : (h.setNext x p).prev = h.prev := rfl
@[simp] theorem setPrev_next (h : Links ν) (x : ν) (p : Option ν) : (h.setPrev x p).next = h.next := rfl

end Writes

variable {ν : Type*}

/-- Following `next` from the pointer `p` one passes the nodes `l` and gets to the pointer `q`. -/
def Seg (next : ν → Option ν) : Option ν → List ν → Option ν → Prop
  | p, [], q => p = q
  | p, x :: l, q => p = some x ∧ Seg next (next x) l q

/-- The first node points back to `b`, and every other one to the node in front of it. -/
def Back (prev : ν → Option ν) : Option ν → List ν → Prop
  | _, [] => True
  | b, x :: l => prev x = b ∧ Back prev (some x) l

/-- The pointer `p` is a list with the nodes `l`. -/
structure IsList (h : Links ν) (p : Option ν) (l : List ν) : Prop where
  nodup : l.Nodup
  seg : Seg h.next p l none
  back : Back h.prev none l

variable {next next' prev prev' : ν → Option ν} {p q b : Option ν} {l l' : List ν} {x : ν}

theorem Seg.congr (h : Seg next p l q) (hnext : ∀ x ∈ l, next' x = next x) : Seg next' p l q := by
  induction l generalizing p with
  | nil => exact h
  | cons x l ih =>
    obtain ⟨rfl, h⟩ := h
    refine ⟨rfl, ?_⟩
    rw [hnext x List.mem_cons_self]
    exact ih h fun y hy => hnext y (List.mem_cons_of_mem x hy)

theorem Back.congr (h : Back prev b l) (hprev : ∀ x ∈ l, prev' x = prev x) : Back prev' b l := by
  induction l generalizing b with
  | nil => exact trivial
  | cons x l ih =>
    obtain ⟨rfl, h⟩ := h
    exact ⟨hprev x List.mem_cons_self, ih h fun y hy => hprev y (List.mem_cons_of_mem x hy)⟩

theorem seg_append : Seg next p (l ++ l') q ↔ ∃ r, Seg next p l r ∧ Seg next r l' q := by
  induction l generalizing p with
  | nil => simp [Seg]
  | cons x l ih => simp only [List.cons_append, Seg, ih, exists_and_left, and_assoc]

/-- A pointer has the nodes of one list only. -/
theorem Seg.unique (h : Seg next p l none) (h' : Seg next p l' none) : l = l' := by
  induction l generalizing p l' with
  | nil =>
    cases h
    cases l' with
    | nil => rfl
    | cons y l' => cases h'.1
  | cons x l ih =>
    obtain ⟨rfl, h⟩ := h
    cases l' with
    | nil => cases h'
    | cons y l' =>
      obtain ⟨e, h'⟩ := h'
      cases e
      rw [ih h h']

/-- The part of a list behind a node. -/
theorem seg_append_cons : Seg next p (l ++ x :: l') q ↔
    Seg next p l (some x) ∧ Seg next (next x) l' q := by
  rw [seg_append]
  exact ⟨fun ⟨r, h, e, h'⟩ => ⟨e ▸ h, h'⟩, fun ⟨h, h'⟩ => ⟨_, h, rfl, h'⟩⟩

theorem back_append_cons : Back prev b (l ++ x :: l') ↔
    Back prev b (l ++ [x]) ∧ Back prev (some x) l' := by
  induction l generalizing b with
  | nil => simp [Back]
  | cons y l ih => simp only [List.cons_append, Back, ih, and_assoc]

/-- A node behind the last one. -/
theorem Back.concat (h : Back prev none l) (hx : prev x = l.getLast?) : Back prev none (l ++ [x]) := by
  rcases List.eq_nil_or_concat l with rfl | ⟨l, y, rfl⟩
  · exact ⟨hx, trivial⟩
  · rw [List.concat_eq_append, List.getLast?_concat] at hx
    rw [List.concat_eq_append] at h ⊢
    rw [List.append_assoc]
    exact back_append_cons.2 ⟨h, hx, trivial⟩

/-- `next` goes from one node to the one behind it. -/
theorem Seg.next_getElem? (h : Seg next p l none) {i : ℕ} (hx : l[i]? = some x) : next x = l[i + 1]? := by
  induction l generalizing p i with
  | nil => simp at hx
  | cons y l ih =>
    obtain ⟨rfl, h⟩ := h
    cases i with
    | succ i => exact ih h (by simpa using hx)
    | zero =>
      rw [List.getElem?_cons_zero, Option.some.injEq] at hx
      subst hx
      cases l with
      | nil => exact h
      | cons z l => exact h.1

section Writes

variable [DecidableEq ν]

/-- A list can be cut behind a node, and anything be put there. -/
theorem Seg.setNext (h : Seg next p (l ++ [x]) q) (hx : x ∉ l) (r : Option ν) :
    Seg (Function.update next x r) p (l ++ [x]) r := by
  rw [seg_append_cons] at h ⊢
  refine ⟨h.1.congr fun _ hy => Function.update_of_ne (ne_of_mem_of_not_mem hy hx) _ _, ?_⟩
  exact Function.update_self _ _ _

theorem Back.setPrev (h : Back prev b (x :: l)) (hx : x ∉ l) (r : Option ν) :
    Back (Function.update prev x r) r (x :: l) :=
  ⟨Function.update_self _ _ _, h.2.congr fun _ hy => Function.update_of_ne (ne_of_mem_of_not_mem hy hx) _ _⟩

end Writes

/-! ### Changing lists -/

/-- A list begins with the node that its pointer is. -/
theorem Seg.head_eq (h : Seg next p l none) : p = l.head? := by
  cases l with
  | nil => exact h
  | cons x l => exact h.1

/-- The part of a list in front of a node, and where the node points back to. -/
theorem Back.front (h : Back prev none (l ++ x :: l')) : Back prev none l ∧ prev x = l.getLast? := by
  have hfront := (back_append_cons.1 h).1
  rcases List.eq_nil_or_concat l with rfl | ⟨l, y, rfl⟩
  · exact ⟨trivial, h.1⟩
  · rw [List.concat_eq_append] at *
    rw [List.append_assoc, List.singleton_append, back_append_cons] at hfront
    rw [List.getLast?_concat]
    exact ⟨hfront.1, hfront.2.1⟩

variable {h h' : Links ν} {r : Option ν}

theorem IsList.congr (hl : IsList h p l)
    (hsame : ∀ x ∈ l, h'.next x = h.next x ∧ h'.prev x = h.prev x) : IsList h' p l where
  nodup := hl.nodup
  seg := hl.seg.congr fun x hx => (hsame x hx).1
  back := hl.back.congr fun x hx => (hsame x hx).2

/-- A list can be led elsewhere behind its last node. -/
theorem Seg.redirect {y : ν} (h : Seg next p (l ++ [y]) q) (hlast : next' y = r) (hother : ∀ z ∈ l, next' z = next z) :
    Seg next' p (l ++ [y]) r :=
  seg_append_cons.2 ⟨(seg_append_cons.1 h).1.congr hother, hlast⟩

/-- A node is linked in behind the last one. -/
theorem IsList.concat (hl : IsList h p l) (hx : x ∉ l) (hnext : h'.next x = none)
    (hlast : ∀ y, l.getLast? = some y → h'.next y = some x)
    (hother : ∀ z ∈ l, l.getLast? ≠ some z → h'.next z = h.next z) (hprev : h'.prev x = l.getLast?)
    (hback : ∀ z ∈ l, h'.prev z = h.prev z) : IsList h' (l ++ [x]).head? (l ++ [x]) where
  nodup := List.nodup_append_comm.1 (List.nodup_cons.2 ⟨hx, hl.nodup⟩)
  seg := by
    rw [seg_append_cons]
    refine ⟨?_, hnext⟩
    have hseg := hl.seg
    rw [hseg.head_eq] at hseg
    rcases List.eq_nil_or_concat l with rfl | ⟨l, y, rfl⟩
    · exact rfl
    · rw [List.concat_eq_append] at *
      rw [List.head?_append_of_ne_nil _ (by simp)]
      refine hseg.redirect (hlast y List.getLast?_concat) fun z hz => hother z (List.mem_append_left _ hz) fun e => ?_
      rw [List.getLast?_concat, Option.some.injEq] at e
      exact (List.nodup_cons.1 (List.nodup_append_comm.1 hl.nodup)).1 (e ▸ hz)
  back := (hl.back.congr hback).concat hprev

/-- A node is unlinked. -/
theorem IsList.unlink {pre post : List ν} (hl : IsList h p (pre ++ x :: post))
    (hlast : ∀ y, pre.getLast? = some y → h'.next y = post.head?)
    (hnext : ∀ z ∈ pre ++ post, pre.getLast? ≠ some z → h'.next z = h.next z)
    (hfirst : ∀ z, post.head? = some z → h'.prev z = pre.getLast?)
    (hprev : ∀ z ∈ pre ++ post, post.head? ≠ some z → h'.prev z = h.prev z) :
    IsList h' (pre ++ post).head? (pre ++ post) := by
  have hnodup := (List.nodup_middle.1 hl.nodup).of_cons
  have hdisj := List.disjoint_of_nodup_append hnodup
  obtain ⟨hpre, hpost⟩ := seg_append_cons.1 hl.seg
  obtain ⟨hbpre, hbpost⟩ := back_append_cons.1 hl.back
  refine ⟨hnodup, ?_, ?_⟩
  · have hpost' : Seg h'.next post.head? post none := by
      rw [← hpost.head_eq]
      refine hpost.congr fun z hz => hnext z (List.mem_append_right _ hz) fun hlast => ?_
      exact hdisj (List.mem_of_getLast? hlast) hz
    refine seg_append.2 ⟨post.head?, ?_, hpost'⟩
    rcases List.eq_nil_or_concat pre with rfl | ⟨pre, y, rfl⟩
    · exact rfl
    · rw [List.concat_eq_append] at *
      have hy := (List.nodup_cons.1 (List.nodup_append_comm.1 (List.nodup_append.1 hnodup).1)).1
      have hp := hl.seg.head_eq
      rw [List.head?_append_of_ne_nil _ (by simp)] at hp ⊢
      rw [← hp]
      refine hpre.redirect (hlast y List.getLast?_concat) fun z hz => ?_
      refine hnext z (List.mem_append_left _ (List.mem_append_left _ hz)) fun e => ?_
      rw [List.getLast?_concat, Option.some.injEq] at e
      exact hy (e ▸ hz)
  · have hpre' : Back h'.prev none pre := by
      have hback := (Back.front hl.back).1
      refine hback.congr fun z hz => hprev z (List.mem_append_left _ hz) fun hhead => ?_
      exact hdisj hz (List.mem_of_head? hhead)
    cases post with
    | nil => rwa [List.append_nil]
    | cons z post =>
      refine back_append_cons.2 ⟨hpre'.concat (hfirst z rfl), hbpost.2.congr fun w hw => ?_⟩
      refine hprev w (List.mem_append_right _ (List.mem_cons_of_mem z hw)) fun e => ?_
      rw [List.head?_cons, Option.some.injEq] at e
      exact (List.nodup_cons.1 (List.nodup_append.1 hnodup).2.1).1 (e ▸ hw)

end LinkedList
