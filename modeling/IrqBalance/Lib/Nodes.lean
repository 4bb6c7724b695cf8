import Mathlib.Data.Finset.Card
import Mathlib.Data.Finset.Lattice.Fold
import Mathlib.Data.Finset.Union
import Mathlib.Order.Lattice.Nat
import IrqBalance.Lib.LinkedList
import IrqBalance.Lib.Loops

/-!
# Lists of allocated nodes

A node has data beside its links, and it can be read, written and freed only while it is allocated; anything
else is undefined behaviour, `none`. `Holds` says which nodes the lists of a program have, and that no other
node is allocated. What an operation does to one list is a `Changes`, and it leaves the other lists as they are
(`Holds.update`). Any lists have a memory (`store_lists`).

`each` is the loop that reads the link of a node, then calls a function on its data, and goes on with the link
it has read. When the function frees at most the node it is called on, the loop does to the nodes what
`Loops.walk` does to the list of their data (`each_rel`).
-/

namespace LinkedList

/-- The nodes, and which of them are allocated. -/
structure Nodes (ν δ : Type*) where
  links : Links ν
  data : ν → δ
  allocated : Finset ν

/-- `malloc`: an address at which nothing is allocated. What is in the node is open. -/
structure Malloc (ν δ : Type*) where
  address : Nodes ν δ → ν
  fresh : ∀ m, address m ∉ m.allocated

variable {ν δ κ : Type*} [DecidableEq ν]

namespace Nodes

/-- `x->next`. -/
def next (m : Nodes ν δ) (x : ν) : Option (Option ν) := if x ∈ m.allocated then some (m.links.next x) else none

/-- `x->prev`. -/
def prev (m : Nodes ν δ) (x : ν) : Option (Option ν) := if x ∈ m.allocated then some (m.links.prev x) else none

/-- `x->data`. -/
def datum (m : Nodes ν δ) (x : ν) : Option δ := if x ∈ m.allocated then some (m.data x) else none

/-- `x->next = p`. -/
def setNext (m : Nodes ν δ) (x : ν) (p : Option ν) : Option (Nodes ν δ) :=
  if x ∈ m.allocated then some { m with links := m.links.setNext x p } else none

/-- `x->prev = p`. -/
def setPrev (m : Nodes ν δ) (x : ν) (p : Option ν) : Option (Nodes ν δ) :=
  if x ∈ m.allocated then some { m with links := m.links.setPrev x p } else none

/-- `x->data = d`. -/
def setData (m : Nodes ν δ) (x : ν) (d : δ) : Option (Nodes ν δ) :=
  if x ∈ m.allocated then some { m with data := Function.update m.data x d } else none

/-- `free(x)`. -/
def free (m : Nodes ν δ) (x : ν) : Option (Nodes ν δ) :=
  if x ∈ m.allocated then some { m with allocated := m.allocated.erase x } else none

/-- The node of a call of `malloc`. -/
def alloc (m : Nodes ν δ) (x : ν) : Nodes ν δ := { m with allocated := insert x m.allocated }

/-- `if (p) p->next = q`. -/
def setNextAt (m : Nodes ν δ) (p q : Option ν) : Option (Nodes ν δ) := p.elim (some m) (m.setNext · q)

/-- `if (p) p->prev = q`. -/
def setPrevAt (m : Nodes ν δ) (p q : Option ν) : Option (Nodes ν δ) := p.elim (some m) (m.setPrev · q)

variable {m : Nodes ν δ} {x : ν} {p : Option ν}

theorem next_eq (h : x ∈ m.allocated) : m.next x = some (m.links.next x) := if_pos h
theorem prev_eq (h : x ∈ m.allocated) : m.prev x = some (m.links.prev x) := if_pos h
theorem datum_eq (h : x ∈ m.allocated) : m.datum x = some (m.data x) := if_pos h
theorem setNext_eq (h : x ∈ m.allocated) (q : Option ν) :
    m.setNext x q = some { m with links := m.links.setNext x q } := if_pos h

theorem setPrev_eq (h : x ∈ m.allocated) (q : Option ν) :
    m.setPrev x q = some { m with links := m.links.setPrev x q } := if_pos h

theorem setData_eq (h : x ∈ m.allocated) (d : δ) :
    m.setData x d = some { m with data := Function.update m.data x d } := if_pos h

theorem free_eq (h : x ∈ m.allocated) : m.free x = some { m with allocated := m.allocated.erase x } := if_pos h

theorem setNextAt_eq (h : ∀ y, p = some y → y ∈ m.allocated) (q : Option ν) : m.setNextAt p q =
    some { m with links := { m.links with next := fun z => if p = some z then q else m.links.next z } } := by
  cases p with
  | none => simp [setNextAt]
  | some y =>
    rw [setNextAt, Option.elim_some, setNext, if_pos (h y rfl), Links.setNext]
    congr 4
    funext z
    rw [Function.update_apply]
    exact if_congr (by rw [Option.some.injEq, eq_comm]) rfl rfl

theorem setPrevAt_eq (h : ∀ y, p = some y → y ∈ m.allocated) (q : Option ν) : m.setPrevAt p q =
    some { m with links := { m.links with prev := fun z => if p = some z then q else m.links.prev z } } := by
  cases p with
  | none => simp [setPrevAt]
  | some y =>
    rw [setPrevAt, Option.elim_some, setPrev, if_pos (h y rfl), Links.setPrev]
    congr 4
    funext z
    rw [Function.update_apply]
    exact if_congr (by rw [Option.some.injEq, eq_comm]) rfl rfl

end Nodes

variable {m m' : Nodes ν δ} {x : ν} {p q : Option ν} {l l' : List ν}

/-- The pointer `p` is a list with the nodes `l`, which are allocated. -/
structure Stored (m : Nodes ν δ) (p : Option ν) (l : List ν) : Prop extends IsList m.links p l where
  allocated : ∀ x ∈ l, x ∈ m.allocated

omit [DecidableEq ν] in
theorem Stored.congr (h : Stored m p l)
    (hlinks : ∀ x ∈ l, m'.links.next x = m.links.next x ∧ m'.links.prev x = m.links.prev x)
    (hallocated : ∀ x ∈ l, x ∈ m'.allocated) : Stored m' p l :=
  ⟨h.toIsList.congr hlinks, hallocated⟩

/-- A list has no more nodes than there are. -/
theorem Stored.length_le (h : Stored m p l) : l.length ≤ m.allocated.card := by
  rw [← List.toFinset_card_of_nodup h.nodup]
  exact Finset.card_le_card fun x hx => h.allocated x (List.mem_toFinset.1 hx)

/-! ### The lists of a program -/

/-- The lists at the pointers `head` have the nodes `nodes`: each node is in one list, and no other node is
allocated. -/
structure Holds (m : Nodes ν δ) (head : κ → Option ν) (nodes : κ → List ν) : Prop where
  list : ∀ k, IsList m.links (head k) (nodes k)
  disjoint : ∀ k k', k ≠ k' → (nodes k).Disjoint (nodes k')
  mem_iff : ∀ x, x ∈ m.allocated ↔ ∃ k, x ∈ nodes k

/-- The list with the nodes `l` has become the list at `q` with the nodes `l'`. The other nodes that were allocated
keep their links, and no data is overwritten. -/
structure Changes (m m' : Nodes ν δ) (l : List ν) (q : Option ν) (l' : List ν) : Prop where
  list : IsList m'.links q l'
  links : ∀ z ∈ m.allocated, z ∉ l → m'.links.next z = m.links.next z ∧ m'.links.prev z = m.links.prev z
  data : ∀ z ∈ m.allocated, m'.data z = m.data z
  new : ∀ x ∈ l', x ∈ l ∨ x ∉ m.allocated
  mem_iff : ∀ x, x ∈ m'.allocated ↔ x ∈ l' ∨ x ∈ m.allocated ∧ x ∉ l

omit [DecidableEq ν] in
/-- The data of nodes that were there. -/
theorem Changes.map_data (hc : Changes m m' l q l') {xs : List ν} (hxs : ∀ x ∈ xs, x ∈ m.allocated) :
    xs.map m'.data = xs.map m.data :=
  List.map_congr_left fun x hx => hc.data x (hxs x hx)

variable {head : κ → Option ν} {nodes : κ → List ν} {k : κ}

omit [DecidableEq ν] in
theorem Holds.allocated (h : Holds m head nodes) (hx : x ∈ nodes k) : x ∈ m.allocated := (h.mem_iff x).2 ⟨k, hx⟩

omit [DecidableEq ν] in
theorem Holds.stored (h : Holds m head nodes) (k : κ) : Stored m (head k) (nodes k) :=
  ⟨h.list k, fun _ hx => h.allocated hx⟩

omit [DecidableEq ν] in
/-- A list of the program is changed, and the other ones are not. -/
theorem Holds.update [DecidableEq κ] (h : Holds m head nodes) (hc : Changes m m' (nodes k) q l') :
    Holds m' (Function.update head k q) (Function.update nodes k l') := by
  have hother : ∀ k' ≠ k, ∀ z ∈ nodes k', z ∉ nodes k := fun k' hne z hz hz' => h.disjoint k' k hne hz hz'
  refine ⟨fun k' => ?_, fun a b hab => ?_, fun x => ?_⟩
  · by_cases hk : k' = k
    · subst hk
      rw [Function.update_self, Function.update_self]
      exact hc.list
    · rw [Function.update_of_ne hk, Function.update_of_ne hk]
      exact (h.list k').congr fun z hz => hc.links z (h.allocated hz) (hother k' hk z hz)
  · have hnew : ∀ k' ≠ k, ∀ z ∈ l', z ∉ nodes k' := fun k' hne z hz hz' =>
      (hc.new z hz).elim (fun hk => hother k' hne z hz' hk) fun hfree => hfree (h.allocated hz')
    by_cases ha : a = k
    · subst ha
      rw [Function.update_self, Function.update_of_ne hab.symm]
      exact fun z hz hz' => hnew b hab.symm z hz hz'
    · rw [Function.update_of_ne ha]
      by_cases hb : b = k
      · subst hb
        rw [Function.update_self]
        exact fun z hz hz' => hnew a ha z hz' hz
      · rw [Function.update_of_ne hb]
        exact h.disjoint a b hab
  · rw [hc.mem_iff, h.mem_iff]
    constructor
    · rintro (hx | ⟨⟨k', hx⟩, hk⟩)
      · exact ⟨k, by rwa [Function.update_self]⟩
      · have hne : k' ≠ k := fun e => hk (e ▸ hx)
        exact ⟨k', by rwa [Function.update_of_ne hne]⟩
    · rintro ⟨k', hx⟩
      by_cases hk : k' = k
      · subst hk
        rw [Function.update_self] at hx
        exact Or.inl hx
      · rw [Function.update_of_ne hk] at hx
        exact Or.inr ⟨⟨k', hx⟩, hother k' hk x hx⟩

/-- The lists at the pointers `head` have the nodes `nodes`, with the data `lists`. -/
structure Lists (m : Nodes ν δ) (head : κ → Option ν) (nodes : κ → List ν) (lists : κ → List δ) : Prop
    extends Holds m head nodes where
  data : ∀ k, (nodes k).map m.data = lists k

variable {lists : κ → List δ} {d : List δ}

omit [DecidableEq ν] in
/-- The data of the lists, when one of them is changed. -/
theorem Lists.update [DecidableEq κ] (h : Lists m head nodes lists) (hc : Changes m m' (nodes k) q l')
    (hd : l'.map m'.data = d) :
    Lists m' (Function.update head k q) (Function.update nodes k l') (Function.update lists k d) where
  toHolds := h.toHolds.update hc
  data k' := by
    by_cases hk : k' = k
    · subst hk
      rw [Function.update_self, Function.update_self, hd]
    · rw [Function.update_of_ne hk, Function.update_of_ne hk, ← h.data k']
      exact List.map_congr_left fun z hz => hc.data z (h.allocated hz)

/-! ### A memory for given lists -/

section Cells

variable (lists : κ → List δ)

/-- The nodes of a list: the places in it. -/
def cells (k : κ) : List (κ × ℕ) := (List.range' 0 (lists k).length).map (Prod.mk k)

/-- The links of the lists, each in its own nodes. -/
def cellLinks : Links (κ × ℕ) where
  next x := if x.2 + 1 < (lists x.1).length then some (x.1, x.2 + 1) else none
  prev x := if x.2 = 0 then none else some (x.1, x.2 - 1)

/-- The memory with the lists of `keys` and no others. -/
def store [DecidableEq κ] [Inhabited δ] (keys : Finset κ) : Nodes (κ × ℕ) δ where
  links := cellLinks lists
  data x := (lists x.1).getD x.2 default
  allocated := keys.biUnion fun k => (cells lists k).toFinset

variable {lists} {k : κ} {x : κ × ℕ}

theorem mem_cells : x ∈ cells lists k ↔ x.1 = k ∧ x.2 < (lists k).length := by
  obtain ⟨k', j⟩ := x
  simp [cells, List.mem_range'_1, and_comm, eq_comm]

/-- The nodes from a place on. -/
theorem cells_from (k : κ) (j n : ℕ) (h : j + n = (lists k).length) :
    Seg (cellLinks lists).next ((List.range' j n).map (Prod.mk k)).head? ((List.range' j n).map (Prod.mk k)) none ∧
      Back (cellLinks lists).prev (if j = 0 then none else some (k, j - 1)) ((List.range' j n).map (Prod.mk k)) := by
  induction n generalizing j with
  | zero => exact ⟨rfl, trivial⟩
  | succ n ih =>
    obtain ⟨hseg, hback⟩ := ih (j + 1) (by omega)
    rw [List.range'_succ, List.map_cons]
    refine ⟨⟨rfl, ?_⟩, rfl, by simpa using hback⟩
    have hnext : (cellLinks lists).next (k, j) = ((List.range' (j + 1) n).map (Prod.mk k)).head? := by
      cases n with
      | zero => exact if_neg (by dsimp only; omega)
      | succ n => exact if_pos (by dsimp only; omega)
    rw [hnext]
    exact hseg

theorem cells_isList (lists : κ → List δ) (k : κ) : IsList (cellLinks lists) (cells lists k).head? (cells lists k) where
  nodup := (List.nodup_range' ..).map (Prod.mk_right_injective k)
  seg := (cells_from k 0 _ (Nat.zero_add _)).1
  back := (cells_from k 0 _ (Nat.zero_add _)).2

/-- **Any lists have a memory**, when only finitely many of them are not empty. -/
theorem store_lists [DecidableEq κ] [Inhabited δ] {keys : Finset κ} (h : ∀ k ∉ keys, lists k = []) :
    Lists (store lists keys) (fun k => (cells lists k).head?) (cells lists) lists where
  list := cells_isList lists
  disjoint k k' hne x hx hx' := hne ((mem_cells.1 hx).1.symm.trans (mem_cells.1 hx').1)
  mem_iff x := by
    simp only [store, Finset.mem_biUnion, List.mem_toFinset]
    constructor
    · rintro ⟨k, -, hx⟩
      exact ⟨k, hx⟩
    · rintro ⟨k, hx⟩
      refine ⟨k, ?_, hx⟩
      by_contra hk
      have hlt := (mem_cells.1 hx).2
      rw [h k hk] at hlt
      exact Nat.not_lt_zero _ hlt
  data k := by
    refine List.ext_getElem (by simp [cells]) fun j hj hj' => ?_
    simp [cells, store, List.getElem_range', hj']

/-- A `malloc` for these nodes: a place behind all others. -/
def behindAll (k : κ) : Malloc (κ × ℕ) δ where
  address m := (k, m.allocated.sup Prod.snd + 1)
  fresh _ h := (Nat.lt_succ_self _).not_ge (Finset.le_sup (f := Prod.snd) h)

end Cells

/-! ### The loop over a list -/

/-- A loop over the nodes from a pointer, with a bound on their number. `mem` is the memory in the state. -/
def each {τ : Type*} (mem : τ → Nodes ν δ) (cb : δ → τ → Option τ) : ℕ → Option ν → τ → Option τ
  | _, none, t => some t
  | 0, some _, _ => none
  | n + 1, some x, t =>
    ((mem t).next x).bind fun next => ((mem t).datum x).bind fun d => (cb d t).bind (each mem cb n next)

section Each

variable {σ τ α : Type*} {mem : τ → Nodes ν δ} {cb : δ → τ → Option τ} {cb' : α → σ → Option σ}

/-- What a loop reads of a node of a list. -/
theorem each_cons {t : τ} {pre rest : List ν} {n : ℕ} (h : Stored (mem t) p (pre ++ x :: rest)) :
    each mem cb (n + 1) (some x) t = (cb ((mem t).data x) t).bind (each mem cb n rest.head?) := by
  have hx : x ∈ (mem t).allocated := h.allocated x (by simp)
  have hnext : (mem t).next x = some rest.head? := by
    rw [Nodes.next_eq hx, (seg_append_cons.1 h.seg).2.head_eq]
  rw [each, hnext, Nodes.datum_eq hx, Option.bind_some, Option.bind_some]

/-- **A loop over a list that stays as it is** goes through the elements in order. -/
theorem each_foldlM_rel (view : τ → ν → α) {R : τ → σ → Prop} {l : List ν} {as : List α}
    (hR : ∀ t s, R t s → Stored (mem t) l.head? l ∧ l.map (view t) = as)
    (hcb : ∀ x ∈ l, ∀ t s, R t s → Option.Rel R (cb ((mem t).data x) t) (cb' (view t x) s)) {t : τ} {s : σ}
    (hts : R t s) {n : ℕ} (hn : l.length ≤ n) :
    Option.Rel R (each mem cb n l.head? t) (as.foldlM (fun s a => cb' a s) s) := by
  suffices ∀ (rest : List ν) (n : ℕ) (t : τ) (s : σ) (pre : List ν), R t s → l = pre ++ rest → rest.length ≤ n →
      Option.Rel R (each mem cb n rest.head? t) ((rest.map (view t)).foldlM (fun s a => cb' a s) s) by
    have hrel := this l n t s [] hts rfl hn
    rwa [(hR t s hts).2] at hrel
  intro rest
  induction rest with
  | nil =>
    intro n t s pre hts _ _
    cases n <;> exact .some hts
  | cons x rest ih =>
    intro n t s pre hts e hn
    cases n with
    | zero => exact absurd hn (Nat.not_succ_le_zero _)
    | succ n =>
      obtain ⟨hstored, hview⟩ := hR t s hts
      rw [e] at hstored hview
      have hx : x ∈ l := by rw [e]; simp
      rw [List.head?_cons, each_cons hstored, List.map_cons, List.foldlM_cons]
      refine Loops.rel_bind (hcb x hx t s hts) fun t' s' hts' => ?_
      have hview' := (hR t' s' hts').2
      rw [e, ← hview] at hview'
      -- no call changes what is left to visit
      have hrest : rest.map (view t') = rest.map (view t) := by
        rw [List.map_append, List.map_append, List.map_cons, List.map_cons] at hview'
        exact (List.cons.inj (List.append_inj_right hview' (by simp))).2
      rw [← hrest]
      exact ih n t' s' (pre ++ [x]) hts' (by rw [e]; simp) (Nat.le_of_succ_le_succ hn)

variable [DecidableEq α] {get : σ → List α} {R : τ → σ → List ν → Prop}

/-- **The loop over the nodes does what the walk over the list does**, if the function on the memory does what the
one on the list does, and frees at most the node it is called on. -/
theorem each_rel (view : τ → ν → α) (hR : ∀ t s l, R t s l → Stored (mem t) l.head? l ∧ l.map (view t) = get s ∧ (get s).Nodup)
    (hcb : ∀ x t s l, R t s l → x ∈ l → Option.Rel (fun t' s' => ∃ l', R t' s' l' ∧ (l' = l ∨ l' = l.erase x) ∧
      ∀ y ∈ l', view t' y = view t y) (cb ((mem t).data x) t) (cb' (view t x) s))
    {t : τ} {s : σ} {l : List ν} (hl : R t s l) {n : ℕ} (hn : l.length ≤ n) :
    Option.Rel (fun t' s' => ∃ l', R t' s' l') (each mem cb n l.head? t) (Loops.walk get cb' s) := by
  suffices ∀ (rest : List ν) (n k : ℕ) (t : τ) (s : σ) (l pre : List ν), R t s l → l = pre ++ rest → rest.length ≤ n →
      rest.length ≤ k → Option.Rel (fun t' s' => ∃ l', R t' s' l') (each mem cb n rest.head? t)
        (Loops.walkFrom get cb' k (rest.map (view t)).head? s) by
    obtain ⟨-, hview, -⟩ := hR t s l hl
    have hlen : l.length = (get s).length := by rw [← hview, List.length_map]
    have hrel := this l n (get s).length t s l [] hl rfl hn hlen.le
    rwa [hview] at hrel
  intro rest
  induction rest with
  | nil =>
    intro n k t s l pre hl e hn hk
    cases n <;> cases k <;> exact .some ⟨l, hl⟩
  | cons x rest ih =>
    intro n k t s l pre hl e hn hk
    obtain ⟨hstored, hview, hnodup⟩ := hR t s l hl
    have hx : x ∈ l := by rw [e]; simp
    cases n with
    | zero => exact absurd hn (Nat.not_succ_le_zero _)
    | succ n =>
      cases k with
      | zero => exact absurd hk (Nat.not_succ_le_zero _)
      | succ k =>
        rw [e] at hstored
        have hget : get s = pre.map (view t) ++ view t x :: rest.map (view t) := by
          rw [← hview, e, List.map_append, List.map_cons]
        -- the nodes in front do not hold what this one holds
        have hpre : view t x ∉ pre.map (view t) := fun hmem => by
          rw [hget] at hnodup
          exact List.disjoint_of_nodup_append hnodup hmem List.mem_cons_self
        rw [List.head?_cons, each_cons hstored, List.map_cons, List.head?_cons, Loops.walkFrom,
          if_pos (by rw [hget]; simp), hget, Loops.next_append hpre]
        refine Loops.rel_bind (hcb x t s l hl hx) ?_
        rintro t' s' ⟨l', hl', hl'l, hsame⟩
        have hxpre : x ∉ pre := fun hmem => hpre (List.mem_map_of_mem hmem)
        obtain ⟨pre', hpre'⟩ : ∃ pre', l' = pre' ++ rest := by
          rcases hl'l with rfl | rfl
          · exact ⟨pre ++ [x], by rw [e]; simp⟩
          · exact ⟨pre, by rw [e, List.erase_append_right _ hxpre, List.erase_cons_head]⟩
        have hrest : rest.map (view t') = rest.map (view t) :=
          List.map_congr_left fun y hy => hsame y (by rw [hpre']; exact List.mem_append_right _ hy)
        rw [← hrest]
        exact ih n k t' s' l' pre' hl' hpre' (Nat.le_of_succ_le_succ hn) (Nat.le_of_succ_le_succ hk)

end Each

end LinkedList
