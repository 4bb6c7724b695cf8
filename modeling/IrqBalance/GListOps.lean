import IrqBalance.GList
import IrqBalance.Lib.Nodes

/-!
# `glist.c`: the other operations

Each of them goes through the nodes by their links, writes links, and allocates or frees at most one node;
`g_list_free` frees all of a list. They do to the lists of a program what the operations on lists of data do
(`gList_ops`), and there is no access to a node that is not allocated, also not by a second `free`.

A loop is bounded by the number of allocated nodes, which no list is longer than.
-/

namespace IrqBalance

open LinkedList (Nodes Malloc Stored Holds Changes IsList Links behindAll cells store)

variable {ν δ : Type} [DecidableEq ν]

/-! ### The source -/

/-- The loop of `g_list_first`. -/
def gListFirstLoop (m : Nodes ν δ) : ℕ → ν → Option ν
  | 0, _ => none
  | n + 1, x => (m.prev x).bind fun p => p.elim (some x) (gListFirstLoop m n)

/-- `g_list_first`. -/
def gListFirst (m : Nodes ν δ) (list : Option ν) : Option (Option ν) :=
  list.elim (some none) fun x => (gListFirstLoop m m.allocated.card x).map some

/-- The loop of `g_list_last`. -/
def gListLastLoop (m : Nodes ν δ) : ℕ → ν → Option ν
  | 0, _ => none
  | n + 1, x => (m.next x).bind fun p => p.elim (some x) (gListLastLoop m n)

/-- `g_list_last`. -/
def gListLast (m : Nodes ν δ) (list : Option ν) : Option (Option ν) :=
  list.elim (some none) fun x => (gListLastLoop m m.allocated.card x).map some

/-- `g_list_append`. -/
def gListAppend (malloc : Malloc ν δ) (m : Nodes ν δ) (list : Option ν) (data : δ) : Option (Nodes ν δ × Option ν) := do
  let newList := malloc.address m
  let m := m.alloc newList
  let m ← m.setData newList data
  let m ← m.setNext newList none
  match list with
  | some _ =>
    let last ← gListLast m list
    match last with
    | none => none
    | some last =>
      let m ← m.setNext last (some newList)
      let m ← m.setPrev newList (some last)
      some (m, list)
  | none =>
    let m ← m.setPrev newList none
    some (m, some newList)

/-- `_g_list_remove_link`. -/
def gListRemoveLink (m : Nodes ν δ) (list link : Option ν) : Option (Nodes ν δ × Option ν) :=
  match link with
  | none => some (m, list)
  | some link => do
    let prev ← m.prev link
    let next ← m.next link
    let m ← m.setNextAt prev next
    let prev ← m.prev link
    let next ← m.next link
    let m ← m.setPrevAt next prev
    -- `list->next` where `link == list`
    let next ← m.next link
    let list := if list = some link then next else list
    let m ← m.setNext link none
    let m ← m.setPrev link none
    some (m, list)

/-- `g_list_delete_link`. -/
def gListDeleteLink (m : Nodes ν δ) (list link : Option ν) : Option (Nodes ν δ × Option ν) := do
  let (m, list) ← gListRemoveLink m list link
  let m ← link.elim (some m) m.free
  some (m, list)

/-- The loop of `g_list_find_custom`; `func` is called with the data of a node. -/
def gListFindCustomLoop (m : Nodes ν δ) (func : δ → ℤ) : ℕ → Option ν → Option (Option ν)
  | _, none => some none
  | 0, some _ => none
  | n + 1, some x =>
    (m.datum x).bind fun d =>
      if func d = 0 then some (some x) else (m.next x).bind (gListFindCustomLoop m func n)

/-- `g_list_find_custom`. -/
def gListFindCustom (m : Nodes ν δ) (list : Option ν) (func : δ → ℤ) : Option (Option ν) :=
  gListFindCustomLoop m func m.allocated.card list

/-- The loop of `g_list_length`. -/
def gListLengthLoop (m : Nodes ν δ) : ℕ → Option ν → ℕ → Option ℕ
  | _, none, length => some length
  | 0, some _, _ => none
  | n + 1, some x, length => (m.next x).bind fun list => gListLengthLoop m n list (length + 1)

/-- `g_list_length`. -/
def gListLength (m : Nodes ν δ) (list : Option ν) : Option ℕ := gListLengthLoop m m.allocated.card list 0

/-- The loop of `g_list_free`. -/
def gListFreeLoop : ℕ → Option ν → Nodes ν δ → Option (Nodes ν δ)
  | _, none, m => some m
  | 0, some _, _ => none
  | n + 1, some x, m => (m.next x).bind fun tmp => (m.free x).bind (gListFreeLoop n tmp)

/-- `g_list_free`. -/
def gListFree (m : Nodes ν δ) (list : Option ν) : Option (Nodes ν δ) := gListFreeLoop m.allocated.card list m

/-- `g_list_sort`, with the nodes in their memory. -/
def gListSortNodes (compareFunc : δ → δ → ℤ) (m : Nodes ν δ) (list : Option ν) : Option (Nodes ν δ × Option ν) :=
  (gListSort (fun x y => compareFunc (m.data x) (m.data y)) (m.allocated.card + 1) m.links list).map fun r =>
    ({ m with links := r.1 }, r.2)

/-! ### Looking at a list -/

variable {m : Nodes ν δ} {p : Option ν} {l : List ν} {x : ν} {n : ℕ}

/-- A list begins where its pointer is. -/
theorem gListFirst_eq (h : Stored m p l) : gListFirst m p = some p := by
  cases l with
  | nil =>
    have hp : p = none := h.seg
    rw [hp]
    rfl
  | cons x l =>
    have hp : p = some x := h.seg.1
    have hlen := h.length_le
    rw [List.length_cons] at hlen
    obtain ⟨n, hn⟩ := Nat.exists_eq_add_of_lt (Nat.lt_of_lt_of_le (Nat.succ_pos _) hlen)
    rw [hp, gListFirst, Option.elim_some, hn, Nat.zero_add, gListFirstLoop,
      Nodes.prev_eq (h.allocated x List.mem_cons_self), h.back.1]
    rfl

theorem gListLastLoop_eq (hseg : LinkedList.Seg m.links.next (some x) (x :: l) none)
    (halloc : ∀ y ∈ x :: l, y ∈ m.allocated) (hn : l.length < n) : gListLastLoop m n x = (x :: l).getLast? := by
  induction l generalizing x n with
  | nil =>
    cases n with
    | zero => exact absurd hn (Nat.not_lt_zero _)
    | succ n =>
      have hnext : m.links.next x = none := hseg.2
      rw [gListLastLoop, Nodes.next_eq (halloc x List.mem_cons_self), hnext]
      rfl
  | cons y l ih =>
    cases n with
    | zero => exact absurd hn (Nat.not_lt_zero _)
    | succ n =>
      obtain ⟨-, hnext, hseg⟩ := hseg
      rw [gListLastLoop, Nodes.next_eq (halloc x List.mem_cons_self), hnext, Option.bind_some, Option.elim_some,
        List.getLast?_cons_cons]
      exact ih ⟨rfl, hseg⟩ (fun z hz => halloc z (List.mem_cons_of_mem x hz)) (by simpa using hn)

/-- The last node of a list. -/
theorem gListLast_eq (h : Stored m p l) : gListLast m p = some l.getLast? := by
  cases l with
  | nil =>
    have hp : p = none := h.seg
    rw [hp]
    rfl
  | cons x l =>
    have hp : p = some x := h.seg.1
    have hseg := h.seg
    rw [hp] at hseg
    rw [hp, gListLast, Option.elim_some, gListLastLoop_eq hseg h.allocated h.length_le]
    rw [List.getLast?_eq_some_getLast (List.cons_ne_nil x l)]
    rfl

theorem gListFindCustomLoop_eq {func : δ → ℤ} (hseg : LinkedList.Seg m.links.next p l none)
    (halloc : ∀ y ∈ l, y ∈ m.allocated) (hn : l.length ≤ n) :
    gListFindCustomLoop m func n p = some (l.find? fun y => func (m.data y) = 0) := by
  induction l generalizing p n with
  | nil =>
    have hp : p = none := hseg
    rw [hp]
    cases n <;> rfl
  | cons x l ih =>
    obtain ⟨rfl, hseg⟩ := hseg
    cases n with
    | zero => exact absurd hn (Nat.not_succ_le_zero _)
    | succ n =>
      have hx := halloc x List.mem_cons_self
      rw [gListFindCustomLoop, Nodes.datum_eq hx, Option.bind_some, List.find?_cons]
      by_cases hfunc : func (m.data x) = 0
      · rw [if_pos hfunc, decide_eq_true hfunc]
      · rw [if_neg hfunc, decide_eq_false hfunc, Nodes.next_eq hx, Option.bind_some]
        exact ih hseg (fun y hy => halloc y (List.mem_cons_of_mem x hy)) (Nat.le_of_succ_le_succ hn)

/-- The first node with data that `func` is 0 for. -/
theorem gListFindCustom_eq (h : Stored m p l) (func : δ → ℤ) :
    gListFindCustom m p func = some (l.find? fun y => func (m.data y) = 0) :=
  gListFindCustomLoop_eq h.seg h.allocated h.length_le

theorem gListLengthLoop_eq {k : ℕ} (hseg : LinkedList.Seg m.links.next p l none) (halloc : ∀ y ∈ l, y ∈ m.allocated)
    (hn : l.length ≤ n) : gListLengthLoop m n p k = some (k + l.length) := by
  induction l generalizing p n k with
  | nil =>
    have hp : p = none := hseg
    rw [hp]
    cases n <;> rfl
  | cons x l ih =>
    obtain ⟨rfl, hseg⟩ := hseg
    cases n with
    | zero => exact absurd hn (Nat.not_succ_le_zero _)
    | succ n =>
      rw [gListLengthLoop, Nodes.next_eq (halloc x List.mem_cons_self), Option.bind_some,
        ih hseg (fun y hy => halloc y (List.mem_cons_of_mem x hy)) (Nat.le_of_succ_le_succ hn), List.length_cons,
        Nat.add_assoc, Nat.add_comm 1]

theorem gListLength_eq (h : Stored m p l) : gListLength m p = some l.length := by
  rw [gListLength, gListLengthLoop_eq h.seg h.allocated h.length_le, Nat.zero_add]

/-! ### Changing a list -/

variable {malloc : Malloc ν δ}

/-- The memory in which a new node has been linked in. -/
def appended (m : Nodes ν δ) (x : ν) (d : δ) (l : List ν) : Nodes ν δ where
  links :=
    { next := fun z => if l.getLast? = some z then some x else Function.update m.links.next x none z
      prev := Function.update m.links.prev x l.getLast? }
  data := Function.update m.data x d
  allocated := insert x m.allocated

theorem gListAppend_eq (h : Stored m p l) (d : δ) : gListAppend malloc m p d =
    some (appended m (malloc.address m) d l, (l ++ [malloc.address m]).head?) := by
  have hfresh := malloc.fresh m
  set x := malloc.address m with hx
  have hxl : x ∉ l := fun hmem => hfresh (h.allocated x hmem)
  have hself : x ∈ insert x m.allocated := Finset.mem_insert_self _ _
  unfold gListAppend
  dsimp only
  rw [← hx, Nodes.setData_eq hself]
  simp only [Option.bind_eq_bind, Option.bind_some]
  rw [Nodes.setNext_eq hself, Option.bind_some]
  rcases List.eq_nil_or_concat l with rfl | ⟨l, y, rfl⟩
  · have hp : p = none := h.seg
    subst hp
    dsimp only
    rw [Nodes.setPrev_eq hself, Option.bind_some]
    simp [appended, Links.setNext, Links.setPrev, Nodes.alloc]
  · rw [List.concat_eq_append] at *
    have hy : y ∈ m.allocated := h.allocated y (by simp)
    obtain ⟨z, rfl⟩ : ∃ z, p = some z := by
      rw [h.seg.head_eq]
      cases l <;> exact ⟨_, rfl⟩
    have hhead : (l ++ [y] ++ [x]).head? = some z := by
      rw [List.head?_append_of_ne_nil _ (by simp), ← h.seg.head_eq]
    dsimp only
    set m₁ : Nodes ν δ :=
      { links := (m.alloc x).links.setNext x none
        data := Function.update (m.alloc x).data x d
        allocated := (m.alloc x).allocated }
    have h₁ : Stored m₁ (some z) (l ++ [y]) := h.congr
      (fun w hw => ⟨Function.update_of_ne (ne_of_mem_of_not_mem hw hxl) _ _, rfl⟩)
      fun w hw => Finset.mem_insert_of_mem (h.allocated w hw)
    have hlast := gListLast_eq h₁
    rw [List.getLast?_concat] at hlast
    have hy₁ : y ∈ m₁.allocated := Finset.mem_insert_of_mem hy
    rw [hlast, Option.bind_some]
    dsimp only
    rw [Nodes.setNext_eq hy₁, Option.bind_some, Nodes.setPrev_eq hself, Option.bind_some, hhead]
    congr 2
    rw [appended, List.getLast?_concat]
    congr 1
    refine congrArg₂ Links.mk (funext fun w => (Function.update_apply ..).trans ?_) rfl
    exact if_congr (by rw [Option.some.injEq, eq_comm]) rfl rfl

/-- **`g_list_append`** links a new node in behind the last one. -/
theorem gListAppend_spec (malloc : Malloc ν δ) (h : Stored m p l) (d : δ) :
    ∃ m' q, gListAppend malloc m p d = some (m', q) ∧ Changes m m' l q (l ++ [malloc.address m]) ∧
      m'.data (malloc.address m) = d := by
  have hfresh := malloc.fresh m
  have hxl : malloc.address m ∉ l := fun hmem => hfresh (h.allocated _ hmem)
  have hne : ∀ z ∈ m.allocated, z ≠ malloc.address m := fun z hz => ne_of_mem_of_not_mem hz hfresh
  have hlast : ∀ z, z ∉ l → l.getLast? ≠ some z := fun z hz e => hz (List.mem_of_getLast? e)
  refine ⟨_, _, gListAppend_eq h d, ⟨?_, fun z hz hzl => ⟨?_, ?_⟩, fun z hz => ?_, fun z hz => ?_, fun z => ?_⟩,
    Function.update_self ..⟩
  · refine h.toIsList.concat hxl ?_ (fun y hy => if_pos hy) (fun z hz hzlast => ?_) (Function.update_self ..)
      fun z hz => Function.update_of_ne (hne z (h.allocated z hz)) _ _
    · exact (if_neg (hlast _ hxl)).trans (Function.update_self ..)
    · exact (if_neg hzlast).trans (Function.update_of_ne (hne z (h.allocated z hz)) _ _)
  · exact (if_neg (hlast z hzl)).trans (Function.update_of_ne (hne z hz) _ _)
  · exact Function.update_of_ne (hne z hz) _ _
  · exact Function.update_of_ne (hne z hz) _ _
  · rcases List.mem_append.1 hz with hz | hz
    · exact Or.inl hz
    · rw [List.mem_singleton.1 hz]
      exact Or.inr hfresh
  · rw [appended, Finset.mem_insert, List.mem_append, List.mem_singleton]
    by_cases hzl : z ∈ l
    · simp [hzl, h.allocated z hzl]
    · simp [hzl]

/-- The links after a node has been unlinked that stands between the nodes `pre` and `post`. -/
def unlinked (h : Links ν) (x : ν) (pre post : List ν) : Links ν where
  next := fun z => if z = x then none else if pre.getLast? = some z then post.head? else h.next z
  prev := fun z => if z = x then none else if post.head? = some z then pre.getLast? else h.prev z

theorem gListRemoveLink_eq {pre post : List ν} (h : Stored m p (pre ++ x :: post)) :
    gListRemoveLink m p (some x) =
      some ({ m with links := unlinked m.links x pre post }, (pre ++ post).head?) := by
  have hnodup := List.nodup_middle.1 h.nodup
  have hxpre : x ∉ pre := fun hmem => (List.nodup_cons.1 hnodup).1 (List.mem_append_left _ hmem)
  have hxpost : x ∉ post := fun hmem => (List.nodup_cons.1 hnodup).1 (List.mem_append_right _ hmem)
  have hx : x ∈ m.allocated := h.allocated x (by simp)
  have hnext : m.links.next x = post.head? := (LinkedList.seg_append_cons.1 h.seg).2.head_eq
  have hprev : m.links.prev x = pre.getLast? := h.back.front.2
  have hlast : ∀ y, pre.getLast? = some y → y ∈ m.allocated := fun y hy =>
    h.allocated y (List.mem_append_left _ (List.mem_of_getLast? hy))
  have hfirst : ∀ y, post.head? = some y → y ∈ m.allocated := fun y hy =>
    h.allocated y (List.mem_append_right _ (List.mem_cons_of_mem x (List.mem_of_head? hy)))
  have hxlast : pre.getLast? ≠ some x := fun e => hxpre (List.mem_of_getLast? e)
  have hxfirst : post.head? ≠ some x := fun e => hxpost (List.mem_of_head? e)
  unfold gListRemoveLink
  simp only [Option.bind_eq_bind]
  rw [Nodes.prev_eq hx, Nodes.next_eq hx, hnext, hprev, Option.bind_some, Option.bind_some,
    Nodes.setNextAt_eq hlast, Option.bind_some]
  dsimp only
  set m₁ : Nodes ν δ := ⟨⟨fun z => if pre.getLast? = some z then post.head? else m.links.next z, m.links.prev⟩,
    m.data, m.allocated⟩
  have hx₁ : x ∈ m₁.allocated := hx
  have hnext₁ : m₁.links.next x = post.head? := (if_neg hxlast).trans hnext
  have hprev₁ : m₁.links.prev x = pre.getLast? := hprev
  have hfirst₁ : ∀ y, post.head? = some y → y ∈ m₁.allocated := hfirst
  rw [Nodes.prev_eq hx₁, Nodes.next_eq hx₁, hnext₁, hprev₁, Option.bind_some, Option.bind_some,
    Nodes.setPrevAt_eq hfirst₁, Option.bind_some]
  dsimp only
  set m₂ : Nodes ν δ := ⟨⟨m₁.links.next, fun z => if post.head? = some z then pre.getLast? else m₁.links.prev z⟩,
    m₁.data, m₁.allocated⟩
  have hx₂ : x ∈ m₂.allocated := hx
  have hnext₂ : m₂.next x = some post.head? := (Nodes.next_eq hx₂).trans (congrArg some hnext₁)
  have hhead : (if p = some x then post.head? else p) = (pre ++ post).head? := by
    rw [h.seg.head_eq]
    cases pre with
    | nil => simp
    | cons y pre =>
      have hne : y ≠ x := fun e => hxpre (by rw [e]; exact List.mem_cons_self)
      simp [hne]
  rw [hnext₂, Option.bind_some, hhead, Nodes.setNext_eq hx₂, Option.bind_some,
    Nodes.setPrev_eq (m := ⟨m₂.links.setNext x none, m₂.data, m₂.allocated⟩) hx₂, Option.bind_some]
  refine congrArg (fun links : Links ν => some (Nodes.mk links m.data m.allocated, (pre ++ post).head?)) ?_
  refine congrArg₂ Links.mk (funext fun z => ?_) (funext fun z => ?_)
  · exact Function.update_apply ..
  · exact Function.update_apply ..

/-- What unlinking a node does to the list, before and after the node is freed. -/
theorem unlinked_changes {pre post : List ν} (h : Stored m p (pre ++ x :: post)) :
    Changes m ⟨unlinked m.links x pre post, m.data, m.allocated.erase x⟩ (pre ++ x :: post) (pre ++ post).head?
      (pre ++ post) := by
  have hnodup := List.nodup_cons.1 (List.nodup_middle.1 h.nodup)
  have hne : ∀ z ∈ pre ++ post, z ≠ x := fun z hz e => hnodup.1 (e ▸ hz)
  have hmem : ∀ z, z ∈ pre ++ x :: post ↔ z = x ∨ z ∈ pre ++ post := fun z => by
    simp only [List.mem_append, List.mem_cons]
    tauto
  refine ⟨h.toIsList.unlink (fun y hy => ?_) (fun z hz hlast => ?_) (fun z hz => ?_) (fun z hz hfirst => ?_),
    fun z hz hzl => ?_, fun _ _ => rfl, fun z hz => Or.inl ((hmem z).2 (Or.inr hz)), fun z => ?_⟩
  · have hyx := hne y (List.mem_append_left _ (List.mem_of_getLast? hy))
    exact (if_neg hyx).trans (if_pos hy)
  · exact (if_neg (hne z hz)).trans (if_neg hlast)
  · have hzx := hne z (List.mem_append_right _ (List.mem_of_head? hz))
    exact (if_neg hzx).trans (if_pos hz)
  · exact (if_neg (hne z hz)).trans (if_neg hfirst)
  · rw [hmem, not_or, List.mem_append, not_or] at hzl
    refine ⟨(if_neg hzl.1).trans (if_neg fun e => ?_), (if_neg hzl.1).trans (if_neg fun e => ?_)⟩
    · exact hzl.2.1 (List.mem_of_getLast? e)
    · exact hzl.2.2 (List.mem_of_head? e)
  · rw [Finset.mem_erase, hmem, not_or]
    constructor
    · rintro ⟨hzx, hz⟩
      by_cases hzl : z ∈ pre ++ post
      · exact Or.inl hzl
      · exact Or.inr ⟨hz, hzx, hzl⟩
    · rintro (hzl | ⟨hz, hzx, -⟩)
      · exact ⟨hne z hzl, h.allocated z ((hmem z).2 (Or.inr hzl))⟩
      · exact ⟨hzx, hz⟩

/-- **`g_list_delete_link`** unlinks the node and frees it. -/
theorem gListDeleteLink_spec (h : Stored m p l) (hx : x ∈ l) :
    ∃ m' q, gListDeleteLink m p (some x) = some (m', q) ∧ Changes m m' l q (l.erase x) := by
  obtain ⟨pre, post, rfl⟩ := List.append_of_mem hx
  have hpre : x ∉ pre := fun hmem => (List.nodup_cons.1 (List.nodup_middle.1 h.nodup)).1 (List.mem_append_left _ hmem)
  have hfree : (Nodes.mk (unlinked m.links x pre post) m.data m.allocated).free x =
      some ⟨unlinked m.links x pre post, m.data, m.allocated.erase x⟩ := Nodes.free_eq (h.allocated x hx)
  refine ⟨_, _, ?_, by rw [List.erase_append_right _ hpre, List.erase_cons_head]; exact unlinked_changes h⟩
  unfold gListDeleteLink
  rw [gListRemoveLink_eq h]
  simp only [Option.bind_eq_bind, Option.bind_some, Option.elim_some]
  rw [hfree, Option.bind_some]

theorem gListFreeLoop_eq (hseg : LinkedList.Seg m.links.next p l none) (hnodup : l.Nodup)
    (halloc : ∀ y ∈ l, y ∈ m.allocated) (hn : l.length ≤ n) :
    gListFreeLoop n p m = some { m with allocated := m.allocated \ l.toFinset } := by
  induction l generalizing p n m with
  | nil =>
    have hp : p = none := hseg
    rw [hp, List.toFinset_nil, Finset.sdiff_empty]
    cases n <;> rfl
  | cons x l ih =>
    obtain ⟨rfl, hseg⟩ := hseg
    obtain ⟨hx, hnodup⟩ := List.nodup_cons.1 hnodup
    cases n with
    | zero => exact absurd hn (Nat.not_succ_le_zero _)
    | succ n =>
      have hxm := halloc x List.mem_cons_self
      have hrest := ih (m := ⟨m.links, m.data, m.allocated.erase x⟩) hseg hnodup
        (fun y hy => Finset.mem_erase.2 ⟨ne_of_mem_of_not_mem hy hx, halloc y (List.mem_cons_of_mem x hy)⟩)
        (Nat.le_of_succ_le_succ hn)
      rw [gListFreeLoop, Nodes.next_eq hxm, Option.bind_some, Nodes.free_eq hxm, Option.bind_some, hrest,
        List.toFinset_cons]
      congr 2
      ext z
      simp only [Finset.mem_sdiff, Finset.mem_erase, Finset.mem_insert]
      tauto

/-- **`g_list_free`** frees each node once. -/
theorem gListFree_spec (h : Stored m p l) : ∃ m', gListFree m p = some m' ∧ Changes m m' l none [] := by
  refine ⟨_, gListFreeLoop_eq h.seg h.nodup h.allocated h.length_le, ⟨⟨List.nodup_nil, rfl, trivial⟩,
    fun _ _ _ => ⟨rfl, rfl⟩, fun _ _ => rfl, fun z hz => absurd hz List.not_mem_nil, fun z => ?_⟩⟩
  simp

/-- **`g_list_sort`**, in its memory. -/
theorem gListSortNodes_spec (compareFunc : δ → δ → ℤ) (h : Stored m p l) :
    ∃ m' q, gListSortNodes compareFunc m p = some (m', q) ∧
      Changes m m' l q (MergeSort.sort (fun x y => compareFunc (m.data x) (m.data y) ≤ 0) l) := by
  obtain ⟨r, hr, hlist, hframe⟩ := gListSort_spec (fun x y => compareFunc (m.data x) (m.data y)) h.toIsList
    (Nat.lt_succ_of_le h.length_le)
  have hmem : ∀ z, z ∈ MergeSort.sort (fun x y => compareFunc (m.data x) (m.data y) ≤ 0) l ↔ z ∈ l := fun z =>
    (MergeSort.sort_perm _ l).mem_iff
  refine ⟨⟨r.1, m.data, m.allocated⟩, r.2, by rw [gListSortNodes, hr]; rfl, hlist, fun z _ hz => hframe z hz,
    fun _ _ => rfl, fun z hz => Or.inl ((hmem z).1 hz), fun z => ?_⟩
  rw [hmem]
  by_cases hz : z ∈ l
  · simp [hz, h.allocated z hz]
  · simp [hz]

theorem eraseP_eq_erase_of_find? {f : ν → Bool} (hx : l.find? f = some x) : l.eraseP f = l.erase x := by
  obtain ⟨hfx, pre, post, rfl, hpre⟩ := List.find?_eq_some_iff_append.1 hx
  have hpre' : ∀ y ∈ pre, ¬f y = true := fun y hy => by simpa using hpre y hy
  rw [List.eraseP_append_right _ hpre', List.eraseP_cons_of_pos hfx,
    List.erase_append_right _ fun hmem => hpre' x hmem hfx, List.erase_cons_head]

section Remove

variable [DecidableEq δ]

end Remove

/-! ### The lists of a program -/

section Program

variable {κ : Type} {head : κ → Option ν} {nodes : κ → List ν} {lists : κ → List δ}

/-- **Deleting what has been found**: the first element that `func` is 0 for. -/
theorem gListDeleteLink_find (h : LinkedList.Lists m head nodes lists) (k : κ) (func : δ → ℤ) :
    ∃ entry, gListFindCustom m (head k) func = some entry ∧ entry.map m.data = (lists k).find? (func · = 0) ∧
      ∀ x, entry = some x → x ∈ nodes k ∧ ∃ m' q, gListDeleteLink m (head k) entry = some (m', q) ∧
        Changes m m' (nodes k) q ((nodes k).erase x) ∧
        ((nodes k).erase x).map m'.data = (lists k).eraseP (func · = 0) := by
  have hstored := h.stored k
  refine ⟨_, gListFindCustom_eq hstored func, ?_, fun x hx => ?_⟩
  · rw [← h.data k, List.find?_map]
    rfl
  · have hmem := List.mem_of_find?_eq_some hx
    obtain ⟨m', q, hdelete, hchanges⟩ := gListDeleteLink_spec hstored hmem
    refine ⟨hmem, m', q, by rw [hx, hdelete], hchanges, ?_⟩
    rw [← h.data k, List.eraseP_map, hchanges.map_data fun y hy => h.allocated (List.mem_of_mem_erase hy)]
    exact congrArg (List.map m.data) (eraseP_eq_erase_of_find? hx).symm

variable [DecidableEq κ]

end Program

end IrqBalance
