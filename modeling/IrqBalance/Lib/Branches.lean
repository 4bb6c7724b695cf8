import IrqBalance.Lib.Sums

/-!
# Weights in a tree

Every node of a tree has a weight. A node hands its weight, and what its parent has handed to it, to its
children in equal parts, rounded down: that is its `share`. The weights of everything below a node, and its
own, are its `branch`. The leaves together get no more than all weights (`Agree.sum_leaves_le`), and what
comes to a node from above and from below is no more either (`Agree.share_add_below_le`).

Both functions have a bound on the depth of the recursion. Nothing here needs it to be large enough.
-/

namespace Branches

variable {ι : Type*}

/-- The parents and the lists of children of the nodes agree. -/
structure Agree (kids : ι → List ι) (parent : ι → Option ι) (nodes : List ι) : Prop where
  nodup : nodes.Nodup
  kids_nodup : ∀ p ∈ nodes, (kids p).Nodup
  mem_kids : ∀ p ∈ nodes, ∀ c, c ∈ kids p ↔ c ∈ nodes ∧ parent c = some p
  parent_mem : ∀ c ∈ nodes, ∀ p, parent c = some p → p ∈ nodes

/-- What a node gets from above, and its own weight. -/
def share (kids : ι → List ι) (parent : ι → Option ι) (w : ι → ℕ) : ℕ → ι → ℕ
  | 0, _ => 0
  | n + 1, c =>
    match parent c with
    | none => w c
    | some p => share kids parent w n p / (kids p).length + w c

/-- What a node gets from its parent. -/
def given (kids : ι → List ι) (parent : ι → Option ι) (w : ι → ℕ) (n : ℕ) (c : ι) : ℕ :=
  (parent c).elim 0 fun p => share kids parent w n p / (kids p).length

/-- The weights of a node and of everything below it. -/
def branch (kids : ι → List ι) (w : ι → ℕ) : ℕ → ι → ℕ
  | 0, _ => 0
  | n + 1, d => ((kids d).map (branch kids w n)).sum + w d

variable {kids : ι → List ι} {parent : ι → Option ι} {nodes : List ι} {w : ι → ℕ} {c d o p : ι} {l l' : List ι}

theorem share_succ (n : ℕ) (c : ι) : share kids parent w (n + 1) c = given kids parent w n c + w c := by
  rw [share, given]
  cases parent c with
  | none => exact (Nat.zero_add _).symm
  | some p => rfl

theorem share_mono (n : ℕ) (c : ι) : share kids parent w n c ≤ share kids parent w (n + 1) c := by
  induction n generalizing c with
  | zero => exact Nat.zero_le _
  | succ n ih =>
    rw [share, share]
    cases hp : parent c with
    | none => exact le_rfl
    | some p => exact Nat.add_le_add_right (Nat.div_le_div_right (ih p)) _

theorem branch_mono (n : ℕ) (d : ι) : branch kids w n d ≤ branch kids w (n + 1) d := by
  induction n generalizing d with
  | zero => exact Nat.zero_le _
  | succ n ih =>
    rw [branch, branch]
    exact Nat.add_le_add_right (List.sum_le_sum fun c _ => ih c) _

/-! ### Sums over all nodes -/

/-- A sum over a list, split in two. -/
theorem sum_map_filter_add (P : ι → Bool) (f : ι → ℕ) (l : List ι) :
    ((l.filter P).map f).sum + ((l.filter fun a => !P a).map f).sum = (l.map f).sum := by
  rw [← ((List.filter_append_perm P l).map f).sum_eq, List.map_append, List.sum_append]

/-- The children of all nodes are the nodes that have a parent. -/
theorem Agree.flatMap_perm (h : Agree kids parent nodes) :
    (nodes.flatMap kids).Perm (nodes.filter fun c => (parent c).isSome) := by
  have hnodup : (nodes.flatMap kids).Nodup := by
    refine List.nodup_flatMap.2 ⟨h.kids_nodup, h.nodup.imp_of_mem fun {p q} hp hq hne => ?_⟩
    intro c hcp hcq
    have ep := ((h.mem_kids p hp c).1 hcp).2
    have eq := ((h.mem_kids q hq c).1 hcq).2
    exact hne (Option.some.inj (ep.symm.trans eq))
  refine (List.perm_ext_iff_of_nodup hnodup (h.nodup.filter _)).2 fun c => ?_
  rw [List.mem_flatMap, List.mem_filter, Option.isSome_iff_exists]
  constructor
  · rintro ⟨p, hp, hc⟩
    obtain ⟨hc, e⟩ := (h.mem_kids p hp c).1 hc
    exact ⟨hc, p, e⟩
  · rintro ⟨hc, p, e⟩
    have hp := h.parent_mem c hc p e
    exact ⟨p, hp, (h.mem_kids p hp c).2 ⟨hc, e⟩⟩

theorem Agree.sum_kids (h : Agree kids parent nodes) (f : ι → ℕ) :
    (nodes.map fun p => ((kids p).map f).sum).sum =
      ((nodes.filter fun c => (parent c).isSome).map f).sum := by
  rw [← Sums.sum_map_flatMap, (h.flatMap_perm.map f).sum_eq]

/-- The branches of the nodes without parent. -/
theorem Agree.sum_roots_le (h : Agree kids parent nodes) (n : ℕ) :
    ((nodes.filter fun c => !(parent c).isSome).map (branch kids w n)).sum ≤ (nodes.map w).sum := by
  cases n with
  | zero =>
    rw [List.sum_eq_zero fun x hx => ?_]
    · exact Nat.zero_le _
    · obtain ⟨c, -, rfl⟩ := List.mem_map.1 hx
      rfl
  | succ n =>
    have hall : (nodes.map (branch kids w (n + 1))).sum =
        ((nodes.filter fun c => (parent c).isSome).map (branch kids w n)).sum + (nodes.map w).sum := by
      rw [← h.sum_kids]
      exact List.sum_map_add
    have hsplit := sum_map_filter_add (fun c => (parent c).isSome) (branch kids w (n + 1)) nodes
    have hmono : ((nodes.filter fun c => (parent c).isSome).map (branch kids w n)).sum ≤
        ((nodes.filter fun c => (parent c).isSome).map (branch kids w (n + 1))).sum :=
      List.sum_le_sum fun c _ => branch_mono n c
    omega

/-- The children of a node get at most what the node has. -/
theorem Agree.sum_given_le (h : Agree kids parent nodes) (n : ℕ) (hp : p ∈ nodes) :
    ((kids p).map (given kids parent w n)).sum ≤ share kids parent w n p := by
  have hgiven : ∀ c ∈ kids p, given kids parent w n c = share kids parent w n p / (kids p).length := by
    intro c hc
    rw [given, ((h.mem_kids p hp c).1 hc).2, Option.elim_some]
  rw [List.map_congr_left hgiven, List.map_const', List.sum_replicate_nat]
  exact Nat.mul_div_le _ _

/-- **The leaves together get at most all weights.** What is handed down arrives at most once. -/
theorem Agree.sum_leaves_le (h : Agree kids parent nodes) (n : ℕ) :
    ((nodes.filter fun d => (kids d).isEmpty).map (share kids parent w n)).sum ≤ (nodes.map w).sum := by
  cases n with
  | zero =>
    rw [List.sum_eq_zero fun x hx => ?_]
    · exact Nat.zero_le _
    · obtain ⟨c, -, rfl⟩ := List.mem_map.1 hx
      rfl
  | succ n =>
    have hall : (nodes.map (share kids parent w (n + 1))).sum =
        (nodes.map (given kids parent w n)).sum + (nodes.map w).sum := by
      rw [funext (share_succ n)]
      exact List.sum_map_add
    -- a root is given nothing, and a leaf gives nothing
    have hroots : ((nodes.filter fun c => !(parent c).isSome).map (given kids parent w n)).sum = 0 := by
      refine List.sum_eq_zero fun x hx => ?_
      obtain ⟨c, hc, rfl⟩ := List.mem_map.1 hx
      simp only [List.mem_filter, Bool.not_eq_true', Option.isSome_eq_false_iff, Option.isNone_iff_eq_none] at hc
      rw [given, hc.2, Option.elim_none]
    have hleaves : ((nodes.filter fun d => (kids d).isEmpty).map fun p =>
        ((kids p).map (given kids parent w n)).sum).sum = 0 := by
      refine List.sum_eq_zero fun x hx => ?_
      obtain ⟨d, hd, rfl⟩ := List.mem_map.1 hx
      rw [List.isEmpty_iff.1 (List.mem_filter.1 hd).2]
      rfl
    have hinner : ((nodes.filter fun d => !(kids d).isEmpty).map fun p =>
        ((kids p).map (given kids parent w n)).sum).sum ≤
        ((nodes.filter fun d => !(kids d).isEmpty).map (share kids parent w (n + 1))).sum :=
      List.sum_le_sum fun p hp => (h.sum_given_le n (List.mem_filter.1 hp).1).trans (share_mono n p)
    have hdown := h.sum_kids (given kids parent w n)
    have hparents := sum_map_filter_add (fun c => (parent c).isSome) (given kids parent w n) nodes
    have hsplit := sum_map_filter_add (fun d => (kids d).isEmpty) (share kids parent w (n + 1)) nodes
    have hsplit' := sum_map_filter_add (fun d => (kids d).isEmpty)
      (fun p => ((kids p).map (given kids parent w n)).sum) nodes
    omega

/-! ### The way up -/

/-- The nodes from a node up to the one without parent. -/
inductive Path (parent : ι → Option ι) : ι → List ι → Prop
  | root {o : ι} : parent o = none → Path parent o [o]
  | step {c p : ι} {l : List ι} : parent c = some p → Path parent p l → Path parent c (c :: l)

theorem Path.unique (h : Path parent o l) (h' : Path parent o l') : l = l' := by
  induction h generalizing l' with
  | root hnone =>
    cases h' with
    | root => rfl
    | step hsome => rw [hnone] at hsome; cases hsome
  | step hsome _ ih =>
    cases h' with
    | root hnone => rw [hnone] at hsome; cases hsome
    | step hsome' h' =>
      rw [hsome, Option.some.injEq] at hsome'
      subst hsome'
      rw [ih h']

theorem Path.of_mem (h : Path parent o l) (hc : c ∈ l) : ∃ l', Path parent c l' ∧ l'.length ≤ l.length := by
  induction h with
  | root hnone =>
    rw [List.mem_singleton.1 hc]
    exact ⟨_, .root hnone, le_rfl⟩
  | step hsome hp ih =>
    rcases List.mem_cons.1 hc with rfl | hc
    · exact ⟨_, .step hsome hp, le_rfl⟩
    · obtain ⟨l', hl', hle⟩ := ih hc
      exact ⟨l', hl', hle.trans (Nat.le_succ _)⟩

/-- The way up comes to no node twice, or it would not end. -/
theorem Path.nodup (h : Path parent o l) : l.Nodup := by
  induction h with
  | root => exact List.nodup_singleton _
  | step hsome hp ih =>
    refine List.nodup_cons.2 ⟨fun hc => ?_, ih⟩
    obtain ⟨l', hl', hle⟩ := hp.of_mem hc
    rw [hl'.unique (.step hsome hp)] at hle
    exact Nat.not_succ_le_self _ hle

/-- The nodes from a node up, computed with a bound on their number. -/
def wayUp (parent : ι → Option ι) : ℕ → ι → List ι
  | 0, _ => []
  | n + 1, c => c :: (parent c).elim [] (wayUp parent n)

theorem Path.wayUp_eq (h : Path parent o l) {n : ℕ} (hn : l.length ≤ n) : wayUp parent n o = l := by
  induction h generalizing n with
  | root hnone =>
    cases n with
    | zero => exact absurd hn (Nat.not_succ_le_zero _)
    | succ n =>
      rw [wayUp, hnone]
      rfl
  | step hsome _ ih =>
    cases n with
    | zero => exact absurd hn (Nat.not_succ_le_zero _)
    | succ n =>
      rw [wayUp, hsome]
      exact congrArg _ (ih (Nat.le_of_succ_le_succ hn))

theorem Agree.path_mem (h : Agree kids parent nodes) (ho : o ∈ nodes) (hl : Path parent o l) :
    ∀ c ∈ l, c ∈ nodes := by
  induction hl with
  | root => exact fun c hc => List.mem_singleton.1 hc ▸ ho
  | step hsome _ ih => exact List.forall_mem_cons.2 ⟨ho, ih (h.parent_mem _ ho _ hsome)⟩

theorem Agree.path_length_le (h : Agree kids parent nodes) (ho : o ∈ nodes) (hl : Path parent o l) :
    l.length ≤ nodes.length :=
  (hl.nodup.subperm (h.path_mem ho hl)).length_le

/-- **What comes to a node from above and from below it is no more than all weights.** -/
theorem Agree.share_add_below_le (h : Agree kids parent nodes) (ho : o ∈ nodes) (hl : Path parent o l) (m n : ℕ) :
    share kids parent w m o + ((kids o).map (branch kids w n)).sum ≤ (nodes.map w).sum := by
  induction hl generalizing m n with
  | @root o hnone =>
    have hroot : o ∈ nodes.filter fun c => !(parent c).isSome := by simp [ho, hnone]
    have hbranch := (Sums.le_sum_map hroot (branch kids w (n + 1))).trans (h.sum_roots_le (n + 1))
    rw [branch] at hbranch
    cases m with
    | zero => rw [share]; omega
    | succ m => rw [share, hnone]; dsimp only; omega
  | @step c p l hsome hp ih =>
    have hp' := h.parent_mem c ho p hsome
    have hbranch := Sums.le_sum_map ((h.mem_kids p hp' c).2 ⟨ho, hsome⟩) (branch kids w (n + 1))
    rw [branch] at hbranch
    cases m with
    | zero =>
      have hle := ih hp' 0 (n + 1)
      rw [share] at hle ⊢
      omega
    | succ m =>
      have hle := ih hp' m (n + 1)
      have hdiv := Nat.div_le_self (share kids parent w m p) (kids p).length
      rw [share, hsome]
      dsimp only
      omega

end Branches
