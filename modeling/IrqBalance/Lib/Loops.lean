import Mathlib.Data.List.Basic
import Mathlib.Data.List.Nodup

/-!
# Loops over lists in a partial state monad

Two ways a C program runs a callback over a linked list, with `none` for undefined behaviour.

* A *snapshot* loop is `List.foldlM`: the list cannot change while it is walked.
* A *cursor* loop (`walk`) follows the links of a list that lives in the state. The successor of a
  node is read before the callback runs, and the callback may unlink nodes. Standing on a node that
  is no longer in the list is undefined.

`foldlM_inv` is the invariant rule of the first. `walk_eq_foldlM` reduces the second to the first
when the callback unlinks at most the node it is called on, and `mem_calls` says what every call of
the callback sees in that case.
-/

namespace Loops

variable {σ α : Type*}

/-! ### Snapshot loops -/

/-- Invariant rule: what every call keeps, the loop keeps. -/
theorem foldlM_inv (P : σ → Prop) {f : σ → α → Option σ} {l : List α}
    (h : ∀ a ∈ l, ∀ s s', P s → f s a = some s' → P s') {s s' : σ} (hs : P s)
    (hf : l.foldlM f s = some s') : P s' := by
  induction l generalizing s with
  | nil => simp only [List.foldlM_nil, Option.pure_def, Option.some.injEq] at hf; rwa [← hf]
  | cons a l ih =>
    rw [List.foldlM_cons] at hf
    obtain ⟨t, ht, hf⟩ := Option.bind_eq_some_iff.1 hf
    exact ih (fun b hb => h b (List.mem_cons_of_mem a hb)) (h a List.mem_cons_self s t hs ht) hf

/-- If every call does to a view of the state what `g` does, the loop does what the fold of `g`
does. -/
theorem foldlM_sim {β : Type*} (P : σ → Prop) (φ : σ → β) (g : β → α → β) {f : σ → α → Option σ}
    {l : List α} (h : ∀ a ∈ l, ∀ s s', P s → f s a = some s' → P s' ∧ φ s' = g (φ s) a) {s s' : σ}
    (hs : P s) (hf : l.foldlM f s = some s') : P s' ∧ φ s' = l.foldl g (φ s) := by
  induction l generalizing s with
  | nil => cases hf; exact ⟨hs, rfl⟩
  | cons a l ih =>
    rw [List.foldlM_cons] at hf
    obtain ⟨t, ht, hf⟩ := Option.bind_eq_some_iff.1 hf
    obtain ⟨hPt, hφ⟩ := h a List.mem_cons_self s t hs ht
    rw [List.foldl_cons, ← hφ]
    exact ih (fun b hb => h b (List.mem_cons_of_mem a hb)) hPt hf

/-- Calls that keep two states related make a sequence that does, and one fails where the other does. -/
theorem rel_bind {τ σ' τ' : Type*} {R : σ → τ → Prop} {R' : σ' → τ' → Prop} {x : Option σ} {y : Option τ}
    {f : σ → Option σ'} {g : τ → Option τ'} (h : Option.Rel R x y)
    (hfg : ∀ s t, R s t → Option.Rel R' (f s) (g t)) : Option.Rel R' (x.bind f) (y.bind g) := by
  cases h with
  | none => exact .none
  | some h => exact hfg _ _ h

/-- Related results are related in a weaker way. -/
theorem rel_mono {τ : Type*} {R R' : σ → τ → Prop} {x : Option σ} {y : Option τ} (h : Option.Rel R x y)
    (hR : ∀ s t, R s t → R' s t) : Option.Rel R' x y := by
  cases h with
  | none => exact .none
  | some h => exact .some (hR _ _ h)

/-- What is known about each of two related results. -/
theorem rel_and {τ : Type*} {R : σ → τ → Prop} {P : σ → Prop} {Q : τ → Prop} {x : Option σ} {y : Option τ}
    (h : Option.Rel R x y) (hx : ∀ s, x = some s → P s) (hy : ∀ t, y = some t → Q t) :
    Option.Rel (fun s t => R s t ∧ P s ∧ Q t) x y := by
  cases h with
  | none => exact .none
  | some h => exact .some ⟨h, hx _ rfl, hy _ rfl⟩

/-- Two loops over one list, in related states. -/
theorem foldlM_rel {τ : Type*} {R : σ → τ → Prop} {f : σ → α → Option σ} {g : τ → α → Option τ} {l : List α}
    (h : ∀ a ∈ l, ∀ s t, R s t → Option.Rel R (f s a) (g t a)) {s : σ} {t : τ} (hst : R s t) :
    Option.Rel R (l.foldlM f s) (l.foldlM g t) := by
  induction l generalizing s t with
  | nil => exact .some hst
  | cons a l ih =>
    rw [List.foldlM_cons, List.foldlM_cons]
    exact rel_bind (h a List.mem_cons_self s t hst) fun s' t' hst' =>
      ih (fun b hb => h b (List.mem_cons_of_mem a hb)) hst'

theorem foldlM_singleton (f : σ → α → Option σ) (a : α) (s : σ) : [a].foldlM f s = f s a := by
  simp

/-- A view of the state that no call changes is not changed by the loop. -/
theorem foldlM_view {β : Type*} (φ : σ → β) {f : σ → α → Option σ} {l : List α}
    (h : ∀ a ∈ l, ∀ s s', f s a = some s' → φ s' = φ s) {s s' : σ}
    (hf : l.foldlM f s = some s') : φ s' = φ s :=
  foldlM_inv (fun t => φ t = φ s) (fun a ha t t' ht hft => (h a ha t t' hft).trans ht) rfl hf

/-- Two loops in a row are one, when the second runs over a list that the first does not change. -/
theorem foldlM_then {φ : σ → List α} {f : σ → α → Option σ}
    (h : ∀ a s s', f s a = some s' → φ s' = φ s) (l : List α) (s : σ) :
    ((l.foldlM f s).bind fun t => (φ t).foldlM f t) = (l ++ φ s).foldlM f s := by
  rw [List.foldlM_append]
  cases ht : l.foldlM f s with
  | none => rfl
  | some t =>
    have hφ : φ t = φ s := foldlM_view φ (fun a _ u u' hu => h a u u' hu) ht
    change (φ t).foldlM f t = (φ s).foldlM f t
    rw [hφ]

/-- A view that no step changes is not changed by a fold. -/
theorem foldl_view {β : Type*} (φ : σ → β) (f : σ → α → σ) (h : ∀ s a, φ (f s a) = φ s) (l : List α)
    (s : σ) : φ (l.foldl f s) = φ s := by
  induction l generalizing s with
  | nil => rfl
  | cons a l ih => exact (ih (f s a)).trans (h s a)

/-- If the call on `a` establishes `Q a` and later calls keep it, the loop establishes it for every
element. -/
theorem foldlM_forall (P : σ → Prop) (Q : α → σ → Prop) {f : σ → α → Option σ} {l : List α}
    (hP : ∀ a ∈ l, ∀ s s', P s → f s a = some s' → P s')
    (hQ : ∀ a ∈ l, ∀ s s', P s → f s a = some s' → Q a s')
    (hk : ∀ a ∈ l, ∀ b ∈ l, ∀ s s', P s → Q b s → f s a = some s' → Q b s')
    {s s' : σ} (hs : P s) (hf : l.foldlM f s = some s') : ∀ a ∈ l, Q a s' := by
  induction l generalizing s with
  | nil => intro a ha; cases ha
  | cons a l ih =>
    rw [List.foldlM_cons] at hf
    obtain ⟨t, ht, hrest⟩ := Option.bind_eq_some_iff.1 hf
    have hmem : ∀ b ∈ l, b ∈ a :: l := fun b hb => List.mem_cons_of_mem a hb
    have hPt : P t := hP a List.mem_cons_self s t hs ht
    intro b hb
    rcases List.mem_cons.1 hb with rfl | hb
    · -- `b` is the head: its own call establishes `Q b`, the rest of the loop keeps it
      have hQt : Q b t := hQ b List.mem_cons_self s t hs ht
      have hboth : P s' ∧ Q b s' := by
        refine foldlM_inv (fun u => P u ∧ Q b u) ?_ ⟨hPt, hQt⟩ hrest
        rintro c hc u u' ⟨hPu, hQu⟩ hfu
        exact ⟨hP c (hmem c hc) u u' hPu hfu, hk c (hmem c hc) b List.mem_cons_self u u' hPu hQu hfu⟩
      exact hboth.2
    · exact ih (fun c hc => hP c (hmem c hc)) (fun c hc => hQ c (hmem c hc))
        (fun c hc d hd => hk c (hmem c hc) d (hmem d hd)) hPt hrest b hb

/-- If every call that starts in `P` succeeds and keeps `P`, the loop succeeds. -/
theorem foldlM_isSome (P : σ → Prop) {f : σ → α → Option σ} {l : List α}
    (h : ∀ a ∈ l, ∀ s, P s → ∃ s', f s a = some s' ∧ P s') {s : σ} (hs : P s) :
    ∃ s', l.foldlM f s = some s' ∧ P s' := by
  induction l generalizing s with
  | nil => exact ⟨s, rfl, hs⟩
  | cons a l ih =>
    obtain ⟨t, ht, hPt⟩ := h a List.mem_cons_self s hs
    obtain ⟨s', hs', hP⟩ := ih (fun b hb => h b (List.mem_cons_of_mem a hb)) hPt
    exact ⟨s', by rw [List.foldlM_cons, ht]; exact hs', hP⟩

/-- A loop whose body depends on the element alone for whether it goes on. -/
theorem foldlM_isSome_iff {P : α → Prop} {f : σ → α → Option σ} (h : ∀ s a, (f s a).isSome ↔ P a) (l : List α)
    (s : σ) : (l.foldlM f s).isSome ↔ ∀ a ∈ l, P a := by
  induction l generalizing s with
  | nil => exact iff_of_true rfl (by simp)
  | cons a l ih =>
    rw [List.foldlM_cons, List.forall_mem_cons, ← h s a]
    cases f s a with
    | none => simp
    | some s' => simpa using ih s'

/-- If a loop succeeds, its call on each element does. -/
theorem foldlM_call {f : σ → α → Option σ} {l : List α} {s s' : σ} (hf : l.foldlM f s = some s')
    {a : α} (ha : a ∈ l) : ∃ t t', f t a = some t' := by
  induction l generalizing s with
  | nil => cases ha
  | cons b l ih =>
    rw [List.foldlM_cons] at hf
    obtain ⟨t, ht, hf⟩ := Option.bind_eq_some_iff.1 hf
    rcases List.mem_cons.1 ha with rfl | ha
    · exact ⟨s, t, ht⟩
    · exact ih hf ha

/-- The calls a snapshot loop makes: the element, and the state the callback is given. -/
def foldCalls (f : σ → α → Option σ) : List α → σ → List (α × σ)
  | [], _ => []
  | a :: l, s => (a, s) :: (f s a).elim [] (foldCalls f l)

/-- A loop that comes to its end has called the callback on every element. -/
theorem foldCalls_fst {f : σ → α → Option σ} {l : List α} {s s' : σ} (h : l.foldlM f s = some s') :
    (foldCalls f l s).map Prod.fst = l := by
  induction l generalizing s with
  | nil => rfl
  | cons a l ih =>
    rw [List.foldlM_cons] at h
    obtain ⟨t, ht, h⟩ := Option.bind_eq_some_iff.1 h
    rw [foldCalls, ht, Option.elim_some, List.map_cons, ih h]

theorem mem_elim {β : Type*} {c : β} {x : Option α} {f : α → List β} :
    c ∈ x.elim [] f ↔ ∃ a, x = some a ∧ c ∈ f a := by
  cases x <;> simp

/-- Every call of a snapshot loop is made in a state that satisfies the loop's invariant. -/
theorem mem_foldCalls (P : σ → Prop) {f : σ → α → Option σ} {l : List α}
    (h : ∀ a ∈ l, ∀ s s', P s → f s a = some s' → P s') {s : σ} (hs : P s) :
    ∀ c ∈ foldCalls f l s, c.1 ∈ l ∧ P c.2 := by
  induction l generalizing s with
  | nil => intro c hc; cases hc
  | cons a l ih =>
    intro c hc
    rcases List.mem_cons.1 hc with rfl | hc
    · exact ⟨List.mem_cons_self, hs⟩
    · cases ht : f s a with
      | none => rw [ht] at hc; cases hc
      | some t =>
        rw [ht] at hc
        have hPt : P t := h a List.mem_cons_self s t hs ht
        obtain ⟨hm, hP⟩ := ih (fun b hb => h b (List.mem_cons_of_mem a hb)) hPt c hc
        exact ⟨List.mem_cons_of_mem a hm, hP⟩

/-- What holds of an element at the start, and is kept by the calls on other elements, holds when a snapshot
loop comes to the element. -/
theorem mem_foldCalls_each (P : σ → Prop) (R : α → σ → Prop) {f : σ → α → Option σ} {l : List α}
    (hl : l.Nodup) (hP : ∀ a ∈ l, ∀ s s', P s → R a s → f s a = some s' → P s')
    (hR : ∀ a ∈ l, ∀ b ∈ l, b ≠ a → ∀ s s', P s → R a s → R b s → f s a = some s' → R b s')
    {s : σ} (hs : P s) (h0 : ∀ a ∈ l, R a s) : ∀ c ∈ foldCalls f l s, c.1 ∈ l ∧ P c.2 ∧ R c.1 c.2 := by
  induction l generalizing s with
  | nil => intro c hc; cases hc
  | cons a l ih =>
    obtain ⟨hal, hl⟩ := List.nodup_cons.1 hl
    have hmem : ∀ b ∈ l, b ∈ a :: l := fun b hb => List.mem_cons_of_mem a hb
    have ha := List.mem_cons_self (a := a) (l := l)
    intro c hc
    rcases List.mem_cons.1 hc with rfl | hc
    · exact ⟨ha, hs, h0 a ha⟩
    · cases ht : f s a with
      | none => rw [ht] at hc; cases hc
      | some t =>
        rw [ht] at hc
        obtain ⟨hm, hPR⟩ := ih hl (fun b hb => hP b (hmem b hb))
          (fun b hb d hd => hR b (hmem b hb) d (hmem d hd)) (hP a ha s t hs (h0 a ha) ht)
          (fun b hb => hR a ha b (hmem b hb) (fun e => hal (e ▸ hb)) s t hs (h0 a ha)
            (h0 b (hmem b hb)) ht) c hc
        exact ⟨hmem _ hm, hPR⟩

/-- If every call of a snapshot loop succeeds, the loop does. -/
theorem foldlM_isSome_of_calls {f : σ → α → Option σ} {l : List α} {s : σ}
    (h : ∀ c ∈ foldCalls f l s, ∃ t, f c.2 c.1 = some t) : ∃ s', l.foldlM f s = some s' := by
  induction l generalizing s with
  | nil => exact ⟨s, rfl⟩
  | cons a l ih =>
    obtain ⟨t, ht⟩ := h (a, s) List.mem_cons_self
    rw [List.foldlM_cons, ht]
    refine ih fun c hc => h c (List.mem_cons_of_mem _ ?_)
    dsimp only at ht
    rw [ht]
    exact hc

section Walk

variable [DecidableEq α]

/-- The element after the first occurrence of `x`. -/
def next (x : α) : List α → Option α
  | [] => none
  | y :: l => if y = x then l.head? else next x l

/-- Walk from a cursor, with a bound on the number of nodes visited. -/
def walkFrom (get : σ → List α) (cb : α → σ → Option σ) : ℕ → Option α → σ → Option σ
  | _, none, s => some s
  | 0, some _, _ => none
  | n + 1, some x, s =>
    if x ∈ get s then (cb x s).bind (walkFrom get cb n (next x (get s))) else none

/-- Walk the list `get s` from its head. The bound is the length of the list at the start: a
callback that makes the walk longer than that is outside this semantics. -/
def walk (get : σ → List α) (cb : α → σ → Option σ) (s : σ) : Option σ :=
  walkFrom get cb (get s).length (get s).head? s

/-- The calls made from a cursor: the node, and the state the callback is given. -/
def callsFrom (get : σ → List α) (cb : α → σ → Option σ) : ℕ → Option α → σ → List (α × σ)
  | n + 1, some x, s => (x, s) :: (cb x s).elim [] (callsFrom get cb n (next x (get s)))
  | _, _, _ => []

/-- The calls made by `walk`. -/
def calls (get : σ → List α) (cb : α → σ → Option σ) (s : σ) : List (α × σ) :=
  callsFrom get cb (get s).length (get s).head? s

theorem next_append {x : α} {pre l : List α} (hx : x ∉ pre) : next x (pre ++ x :: l) = l.head? := by
  induction pre with
  | nil => simp [next]
  | cons y pre ih =>
    simp only [List.mem_cons, not_or] at hx
    simp [next, Ne.symm hx.1, ih hx.2]

/-- A callback that keeps `Inv` and unlinks at most the node it is called on. -/
def UnlinksSelf (Inv : σ → Prop) (get : σ → List α) (cb : α → σ → Option σ) : Prop :=
  ∀ x s s', Inv s → x ∈ get s → cb x s = some s' →
    Inv s' ∧ (get s' = get s ∨ get s' = (get s).erase x)

variable {Inv : σ → Prop} {get : σ → List α} {cb : α → σ → Option σ}

/-- What is left to visit stays a suffix of the list over a call on the node before it. -/
theorem suffix_after (hcb : UnlinksSelf Inv get cb) {s s' : σ} {x : α} {pre l : List α}
    (hs : Inv s) (hget : get s = pre ++ x :: l) (hx : x ∉ pre) (h : cb x s = some s') :
    Inv s' ∧ ∃ pre', get s' = pre' ++ l := by
  obtain ⟨hinv, hsame | herase⟩ := hcb x s s' hs (by simp [hget]) h
  · exact ⟨hinv, pre ++ [x], by rw [hsame, hget]; simp⟩
  · exact ⟨hinv, pre, by rw [herase, hget, List.erase_append_right _ hx, List.erase_cons_head]⟩

omit [DecidableEq α] in
theorem not_mem_pre (hnd : ∀ s, Inv s → (get s).Nodup) {s : σ} {x : α} {pre l : List α}
    (hs : Inv s) (hget : get s = pre ++ x :: l) : x ∉ pre := by
  have h := hnd s hs
  rw [hget] at h
  exact fun hx => (List.disjoint_of_nodup_append h) hx List.mem_cons_self

theorem walkFrom_eq_foldlM (hnd : ∀ s, Inv s → (get s).Nodup) (hcb : UnlinksSelf Inv get cb)
    (l : List α) {n : ℕ} (hn : l.length ≤ n) {s : σ} (hs : Inv s) (pre : List α)
    (hget : get s = pre ++ l) :
    walkFrom get cb n l.head? s = l.foldlM (fun s x => cb x s) s := by
  induction l generalizing n s pre with
  | nil => cases n <;> rfl
  | cons x l ih =>
    cases n with
    | zero => simp at hn
    | succ n =>
      have hx := not_mem_pre hnd hs hget
      rw [List.foldlM_cons, List.head?_cons, walkFrom, if_pos (by simp [hget]), hget,
        next_append hx]
      cases h : cb x s with
      | none => rfl
      | some s' =>
        obtain ⟨hs', pre', hget'⟩ := suffix_after hcb hs hget hx h
        exact ih (by simpa using hn) hs' pre' hget'

/-- When the callback unlinks at most the node it is called on, the walk visits the list as it was
at the start. -/
theorem walk_eq_foldlM (hnd : ∀ s, Inv s → (get s).Nodup) (hcb : UnlinksSelf Inv get cb)
    {s : σ} (hs : Inv s) : walk get cb s = (get s).foldlM (fun s x => cb x s) s :=
  walkFrom_eq_foldlM hnd hcb (get s) (Nat.le_refl _) hs [] rfl

theorem mem_callsFrom (hnd : ∀ s, Inv s → (get s).Nodup) (hcb : UnlinksSelf Inv get cb)
    (l : List α) {n : ℕ} {s : σ} (hs : Inv s) (pre : List α) (hget : get s = pre ++ l) :
    ∀ c ∈ callsFrom get cb n l.head? s, Inv c.2 ∧ c.1 ∈ get c.2 := by
  induction l generalizing n s pre with
  | nil => intro c hc; cases n <;> cases hc
  | cons x l ih =>
    intro c hc
    cases n with
    | zero => cases hc
    | succ n =>
      have hx := not_mem_pre hnd hs hget
      rw [List.head?_cons, callsFrom, hget, next_append hx] at hc
      rcases List.mem_cons.1 hc with rfl | hc
      · exact ⟨hs, by simp [hget]⟩
      · cases h : cb x s with
        | none => rw [h] at hc; cases hc
        | some s' =>
          rw [h] at hc
          obtain ⟨hs', pre', hget'⟩ := suffix_after hcb hs hget hx h
          exact ih hs' pre' hget' c hc

/-- Every call of the walk is made in a state that satisfies the invariant, on a node that is still
in the list. -/
theorem mem_calls (hnd : ∀ s, Inv s → (get s).Nodup) (hcb : UnlinksSelf Inv get cb)
    {s : σ} (hs : Inv s) : ∀ c ∈ calls get cb s, Inv c.2 ∧ c.1 ∈ get c.2 :=
  mem_callsFrom hnd hcb (get s) hs [] rfl

/-- What holds at the start and is kept by the calls of the walk holds at each of them, and at the end. -/
theorem walk_calls (hnd : ∀ s, Inv s → (get s).Nodup) (hcb : UnlinksSelf Inv get cb) (P : σ → Prop) {s : σ}
    (hs : Inv s) (h0 : P s)
    (hP : ∀ c ∈ calls get cb s, ∀ t, Inv c.2 → c.1 ∈ get c.2 → P c.2 → cb c.1 c.2 = some t → P t) :
    (∀ c ∈ calls get cb s, P c.2) ∧ ∀ s', walk get cb s = some s' → P s' := by
  suffices ∀ (l : List α) (n : ℕ) (t : σ) (pre : List α), Inv t → get t = pre ++ l → P t →
      (∀ c ∈ callsFrom get cb n l.head? t, c ∈ calls get cb s) →
      (∀ c ∈ callsFrom get cb n l.head? t, P c.2) ∧ ∀ s', walkFrom get cb n l.head? t = some s' → P s' from
    this (get s) _ s [] hs rfl h0 fun c hc => hc
  intro l
  induction l with
  | nil =>
    intro n t pre _ _ ht _
    refine ⟨fun c hc => ?_, fun s' h => ?_⟩
    · cases n <;> cases hc
    · cases n <;> · simp only [List.head?_nil, walkFrom, Option.some.injEq] at h; rwa [← h]
  | cons x l ih =>
    intro n t pre ht hget hPt hcalls
    cases n with
    | zero =>
      refine ⟨fun c hc => ?_, fun s' h => ?_⟩
      · cases hc
      · simp [walkFrom] at h
    | succ n =>
      have hx := not_mem_pre hnd ht hget
      have hmem : x ∈ get t := by simp [hget]
      rw [List.head?_cons, callsFrom, hget, next_append hx] at hcalls ⊢
      rw [walkFrom, if_pos hmem, hget, next_append hx]
      have hself := hP (x, t) (hcalls _ List.mem_cons_self)
      cases hu : cb x t with
      | none =>
        refine ⟨fun c hc => ?_, fun s' h => ?_⟩
        · rw [List.mem_singleton.1 hc]
          exact hPt
        · cases h
      | some u =>
        rw [hu] at hcalls
        obtain ⟨hinv, pre', hget'⟩ := suffix_after hcb ht hget hx hu
        obtain ⟨hrest, hend⟩ := ih n u pre' hinv hget' (hself u ht hmem hPt hu)
          fun c hc => hcalls c (List.mem_cons_of_mem _ hc)
        refine ⟨fun c hc => ?_, hend⟩
        rcases List.mem_cons.1 hc with rfl | hc
        · exact hPt
        · exact hrest c hc

/-- What holds of a node at the start, and is kept by the calls on other nodes, holds when the walk
comes to the node. -/
theorem mem_calls_each (hnd : ∀ s, Inv s → (get s).Nodup) (hcb : UnlinksSelf Inv get cb)
    (R : α → σ → Prop)
    (hR : ∀ x y s s', x ≠ y → Inv s → y ∈ get s → R x s → cb y s = some s' → R x s')
    {s : σ} (hs : Inv s) (h0 : ∀ x ∈ get s, R x s) : ∀ c ∈ calls get cb s, R c.1 c.2 := by
  suffices ∀ (l : List α) (n : ℕ) (t : σ) (pre : List α), Inv t → get t = pre ++ l →
      (∀ x ∈ l, R x t) → ∀ c ∈ callsFrom get cb n l.head? t, R c.1 c.2 from
    this (get s) _ s [] hs rfl h0
  intro l
  induction l with
  | nil => intro n t pre _ _ _ c hc; cases n <;> cases hc
  | cons x l ih =>
    intro n t pre ht hget h0 c hc
    cases n with
    | zero => cases hc
    | succ n =>
      have hx := not_mem_pre hnd ht hget
      have hxl : x ∉ l := by
        have hnodup := hnd t ht
        rw [hget] at hnodup
        exact (List.nodup_cons.1 hnodup.of_append_right).1
      rw [List.head?_cons, callsFrom, hget, next_append hx] at hc
      rcases List.mem_cons.1 hc with rfl | hc
      · exact h0 x List.mem_cons_self
      · cases hu : cb x t with
        | none => rw [hu] at hc; cases hc
        | some u =>
          rw [hu] at hc
          obtain ⟨hinv, pre', hget'⟩ := suffix_after hcb ht hget hx hu
          exact ih n u pre' hinv hget' (fun y hy => hR y x t u (fun e => hxl (e ▸ hy)) ht
            (by simp [hget]) (h0 y (List.mem_cons_of_mem x hy)) hu) c hc

/-- If every call of the walk succeeds, the walk does. -/
theorem walk_isSome (hnd : ∀ s, Inv s → (get s).Nodup) (hcb : UnlinksSelf Inv get cb) {s : σ}
    (hs : Inv s) (hcalls : ∀ c ∈ calls get cb s, ∃ t, cb c.1 c.2 = some t) :
    ∃ s', walk get cb s = some s' := by
  suffices ∀ (l : List α) (n : ℕ) (t : σ) (pre : List α), l.length ≤ n → Inv t → get t = pre ++ l →
      (∀ c ∈ callsFrom get cb n l.head? t, ∃ u, cb c.1 c.2 = some u) →
      ∃ s', walkFrom get cb n l.head? t = some s' from
    this (get s) _ s [] (Nat.le_refl _) hs rfl hcalls
  intro l
  induction l with
  | nil => intro n t _ _ _ _ _; exact ⟨t, by cases n <;> rfl⟩
  | cons x l ih =>
    intro n t pre hn ht hget hcalls
    cases n with
    | zero => simp at hn
    | succ n =>
      have hx := not_mem_pre hnd ht hget
      rw [List.head?_cons, callsFrom, hget, next_append hx] at hcalls
      obtain ⟨u, hu⟩ := hcalls (x, t) List.mem_cons_self
      dsimp only at hu
      obtain ⟨hinv, pre', hget'⟩ := suffix_after hcb ht hget hx hu
      rw [List.head?_cons, walkFrom, if_pos (by simp [hget]), hget, next_append hx, hu]
      refine ih n u pre' (by simpa using hn) hinv hget' fun c hc => hcalls c ?_
      rw [hu]
      exact List.mem_cons_of_mem _ hc

/-- If a walk succeeds, all its calls do. -/
theorem callsFrom_isSome {n : ℕ} {c : Option α} {s : σ} (h : (walkFrom get cb n c s).isSome) :
    ∀ e ∈ callsFrom get cb n c s, (cb e.1 e.2).isSome := by
  induction n generalizing c s with
  | zero => intro e he; cases c <;> cases he
  | succ n ih =>
    cases c with
    | none => intro e he; cases he
    | some x =>
      rw [walkFrom] at h
      split_ifs at h
      · cases ht : cb x s with
        | none => rw [ht] at h; cases h
        | some t =>
          rw [ht] at h
          rw [callsFrom, ht, Option.elim_some, List.forall_mem_cons]
          exact ⟨by rw [ht]; rfl, ih h⟩
      · cases h

/-- A walk succeeds if and only if all its calls do. -/
theorem walk_isSome_iff (hnd : ∀ s, Inv s → (get s).Nodup) (hcb : UnlinksSelf Inv get cb) {s : σ}
    (hs : Inv s) : (walk get cb s).isSome ↔ ∀ c ∈ calls get cb s, (cb c.1 c.2).isSome := by
  refine ⟨callsFrom_isSome, fun h => ?_⟩
  obtain ⟨s', hs'⟩ := walk_isSome hnd hcb hs fun c hc => Option.isSome_iff_exists.1 (h c hc)
  rw [hs']
  rfl

/-- A walk that comes to its end calls the callback on the nodes of the list, in order. -/
theorem calls_fst (hnd : ∀ s, Inv s → (get s).Nodup) (hcb : UnlinksSelf Inv get cb) {s s' : σ} (hs : Inv s)
    (h : walk get cb s = some s') : (calls get cb s).map Prod.fst = get s := by
  suffices ∀ (l : List α) (n : ℕ) (t : σ) (pre : List α), Inv t → get t = pre ++ l →
      walkFrom get cb n l.head? t = some s' → (callsFrom get cb n l.head? t).map Prod.fst = l from
    this (get s) _ s [] hs rfl h
  intro l
  induction l with
  | nil => intro n t pre _ _ _; cases n <;> rfl
  | cons x l ih =>
    intro n t pre ht hget hw
    cases n with
    | zero => cases hw
    | succ n =>
      rw [List.head?_cons, walkFrom, if_pos (by simp [hget]), hget, next_append (not_mem_pre hnd ht hget)] at hw
      obtain ⟨u, hu, hw⟩ := Option.bind_eq_some_iff.1 hw
      obtain ⟨hinv, pre', hget'⟩ := suffix_after hcb ht hget (not_mem_pre hnd ht hget) hu
      rw [List.head?_cons, callsFrom, hget, next_append (not_mem_pre hnd ht hget), hu, Option.elim_some,
        List.map_cons, ih n u pre' hinv hget' hw]

/-- Invariant rule of the cursor loop. -/
theorem walk_inv (hnd : ∀ s, Inv s → (get s).Nodup) (hcb : UnlinksSelf Inv get cb) {s s' : σ}
    (hs : Inv s) (h : walk get cb s = some s') : Inv s' :=
  (walk_calls hnd hcb Inv hs hs fun c _ t hinv hmem _ ht => (hcb c.1 c.2 t hinv hmem ht).1).2 s' h

/-- If the call on `x` turns `R x` into `Q x`, and the other calls keep both, the walk turns `R` into
`Q` on the whole list. -/
theorem walk_each (hnd : ∀ s, Inv s → (get s).Nodup) (hcb : UnlinksSelf Inv get cb)
    (R Q : α → σ → Prop)
    (hR : ∀ x y s s', x ≠ y → Inv s → y ∈ get s → R x s → cb y s = some s' → R x s')
    (hRQ : ∀ x s s', Inv s → x ∈ get s → R x s → cb x s = some s' → Q x s')
    (hQ : ∀ x y s s', x ≠ y → Inv s → y ∈ get s → Q x s → cb y s = some s' → Q x s')
    {s s' : σ} (hs : Inv s) (h0 : ∀ x ∈ get s, R x s) (h : walk get cb s = some s') :
    ∀ x ∈ get s, Q x s' := by
  rw [walk_eq_foldlM hnd hcb hs] at h
  -- carried along: what is left to visit is a suffix of the list
  suffices ∀ (l : List α) (t : σ) (pre : List α), Inv t → get t = pre ++ l → (∀ x ∈ l, R x t) →
      l.foldlM (fun s x => cb x s) t = some s' →
      (∀ x ∈ l, Q x s') ∧ ∀ x, x ∉ l → Q x t → Q x s' from
    (this (get s) s [] hs rfl h0 h).1
  intro l
  induction l with
  | nil =>
    intro t pre _ _ _ h
    cases h
    exact ⟨fun x hx => absurd hx List.not_mem_nil, fun x _ hx => hx⟩
  | cons y l ih =>
    intro t pre ht hget h0 h
    rw [List.foldlM_cons] at h
    obtain ⟨u, hu, h⟩ := Option.bind_eq_some_iff.1 h
    have hy : y ∈ get t := by simp [hget]
    have hyl : y ∉ l := by
      have hnodup := hnd t ht
      rw [hget] at hnodup
      exact (List.nodup_cons.1 hnodup.of_append_right).1
    obtain ⟨hinv, pre', hget'⟩ := suffix_after hcb ht hget (not_mem_pre hnd ht hget) hu
    obtain ⟨hl, hrest⟩ := ih u pre' hinv hget' (fun x hx => hR x y t u
      (fun e => hyl (e ▸ hx)) ht hy (h0 x (List.mem_cons_of_mem y hx)) hu) h
    refine ⟨fun x hx => ?_, fun x hx hq => ?_⟩
    · rcases List.mem_cons.1 hx with rfl | hx
      · exact hrest x hyl (hRQ x t u ht hy (h0 x List.mem_cons_self) hu)
      · exact hl x hx
    · have hxy : x ≠ y := fun e => hx (e ▸ List.mem_cons_self)
      exact hrest x (fun hm => hx (List.mem_cons_of_mem y hm)) (hQ x y t u hxy ht hy hq hu)

/-- What every call keeps, wherever it is made, the walk keeps. -/
theorem walk_keeps (P : σ → Prop) (h : ∀ x s s', P s → cb x s = some s' → P s') {s s' : σ}
    (hs : P s) (hw : walk get cb s = some s') : P s' := by
  suffices ∀ (n : ℕ) (c : Option α) (t : σ), P t → walkFrom get cb n c t = some s' → P s' from
    this _ _ s hs hw
  intro n
  induction n with
  | zero =>
    intro c t ht hw
    cases c with
    | none => simp only [walkFrom, Option.some.injEq] at hw; rwa [← hw]
    | some x => simp [walkFrom] at hw
  | succ n ih =>
    intro c t ht hw
    cases c with
    | none => simp only [walkFrom, Option.some.injEq] at hw; rwa [← hw]
    | some x =>
      rw [walkFrom] at hw
      split_ifs at hw
      obtain ⟨u, hu, hw⟩ := Option.bind_eq_some_iff.1 hw
      exact ih _ u (h x t u ht hu) hw

/-- A view of the state that no call changes is not changed by the walk. -/
theorem walk_view {β : Type*} (φ : σ → β) (h : ∀ x s s', cb x s = some s' → φ s' = φ s)
    {s s' : σ} (hw : walk get cb s = some s') : φ s' = φ s :=
  walk_keeps (fun t => φ t = φ s) (fun x t t' ht hx => (h x t t' hx).trans ht) rfl hw

end Walk

end Loops
