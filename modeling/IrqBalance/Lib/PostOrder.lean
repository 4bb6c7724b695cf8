import IrqBalance.Lib.Loops
import Mathlib.Logic.Relation

/-!
# Visiting a graph in post-order

`visit` goes through everything below a node, children first, and acts on each node. The children lists
live in the state, and nothing stops two nodes from sharing a child: a node may be visited several times.
`visit_rule` is for actions that establish a property of their node once the children have it, and spoil it
for no other node.
-/

namespace PostOrder

variable {σ ι : Type*}

/-- Visit the nodes below `d` and then `d`, with a bound on the depth. -/
def visit (kids : σ → ι → List ι) (put : ι → σ → Option σ) : ℕ → ι → σ → Option σ
  | 0, _, _ => none
  | n + 1, d, s => ((kids s d).foldlM (fun s c => visit kids put n c s) s).bind (put d)

/-- `o` is `d` or below it. -/
def Below (kids : ι → List ι) : ι → ι → Prop := Relation.ReflTransGen fun a b => b ∈ kids a

/-- The children of the nodes of `D` are nodes of `D`, with a smaller rank. -/
structure Ranked (D : Set ι) (rank : ι → ℕ) (kids : ι → List ι) : Prop where
  mem : ∀ d ∈ D, ∀ c ∈ kids d, c ∈ D
  lt : ∀ d ∈ D, ∀ c ∈ kids d, rank c < rank d

variable {kids : σ → ι → List ι} {put : ι → σ → Option σ} {Inv : σ → Prop} {D : Set ι} {rank : ι → ℕ}
variable {graph : ι → List ι}

/-- The rule of the loop over some nodes, from the rule of the visits. -/
theorem foldlM_rule {Q : ι → σ → Prop} {f : σ → ι → Option σ} {l : List ι}
    (h : ∀ c ∈ l, ∀ s s', Inv s → f s c = some s' →
      Inv s' ∧ (∀ o ∈ D, Q o s → Q o s') ∧ ∀ o, Below graph c o → Q o s')
    (hbelow : ∀ c ∈ l, ∀ o, Below graph c o → o ∈ D) {s s' : σ} (hs : Inv s)
    (hf : l.foldlM f s = some s') :
    Inv s' ∧ (∀ o ∈ D, Q o s → Q o s') ∧ ∀ c ∈ l, ∀ o, Below graph c o → Q o s' := by
  induction l generalizing s with
  | nil =>
    cases hf
    exact ⟨hs, fun _ _ ho => ho, fun c hc => absurd hc List.not_mem_nil⟩
  | cons c l ih =>
    rw [List.foldlM_cons] at hf
    obtain ⟨t, ht, hf⟩ := Option.bind_eq_some_iff.1 hf
    obtain ⟨hinv, hkeep, hc⟩ := h c List.mem_cons_self s t hs ht
    obtain ⟨hinv', hkeep', hl⟩ := ih (fun a ha => h a (List.mem_cons_of_mem c ha))
      (fun a ha => hbelow a (List.mem_cons_of_mem c ha)) hinv hf
    refine ⟨hinv', fun o ho hq => hkeep' o ho (hkeep o ho hq), fun a ha o ho => ?_⟩
    rcases List.mem_cons.1 ha with rfl | ha
    · exact hkeep' o (hbelow a List.mem_cons_self o ho) (hc o ho)
    · exact hl a ha o ho

theorem Ranked.below_mem (h : Ranked D rank graph) {d o : ι} (hd : d ∈ D) (ho : Below graph d o) :
    o ∈ D := by
  induction ho with
  | refl => exact hd
  | tail _ hc ih => exact h.mem _ ih _ hc

/-- **What the action establishes for its node, a visit establishes for everything below.** -/
theorem visit_rule (hD : Ranked D rank graph) (Q : ι → σ → Prop)
    (hkids : ∀ s, Inv s → kids s = graph)
    (hput : ∀ d ∈ D, ∀ s s', Inv s → (∀ c ∈ graph d, Q c s) → put d s = some s' → Inv s' ∧ Q d s')
    (hkeep : ∀ d ∈ D, ∀ o ∈ D, ∀ s s', Inv s → (∀ c ∈ graph d, Q c s) → Q o s → put d s = some s' →
      Q o s')
    (n : ℕ) {d : ι} (hd : d ∈ D) {s s' : σ} (hs : Inv s) (h : visit kids put n d s = some s') :
    Inv s' ∧ (∀ o ∈ D, Q o s → Q o s') ∧ ∀ o, Below graph d o → Q o s' := by
  induction n generalizing d s s' with
  | zero => cases h
  | succ n ih =>
    obtain ⟨t, ht, h⟩ := Option.bind_eq_some_iff.1 h
    rw [hkids s hs] at ht
    obtain ⟨hinv, hkeep', hbelow⟩ := foldlM_rule (fun c hc u u' hu hu' => ih (hD.mem d hd c hc) hu hu')
      (fun c hc o => hD.below_mem (hD.mem d hd c hc)) hs ht
    have hchildren : ∀ c ∈ graph d, Q c t := fun c hc => hbelow c hc c .refl
    obtain ⟨hinv', hq⟩ := hput d hd t s' hinv hchildren h
    refine ⟨hinv', fun o ho hqo => hkeep d hd o ho t s' hinv hchildren (hkeep' o ho hqo) h,
      fun o ho => ?_⟩
    rcases ho.cases_head with rfl | ⟨c, hc, ho⟩
    · exact hq
    · exact hkeep d hd o (hD.below_mem (hD.mem d hd c hc) ho) t s' hinv hchildren (hbelow c hc o ho) h

/-- A visit with room for the rank of its node ends, when the actions do. -/
theorem visit_isSome (hD : Ranked D rank graph) (Inv : σ → Prop) (hkids : ∀ s, Inv s → kids s = graph)
    (hput : ∀ d ∈ D, ∀ s, Inv s → ∃ s', put d s = some s' ∧ Inv s')
    (n : ℕ) {d : ι} (hd : d ∈ D) (hn : rank d < n) {s : σ} (hs : Inv s) :
    ∃ s', visit kids put n d s = some s' ∧ Inv s' := by
  induction n generalizing d s with
  | zero => exact absurd hn (Nat.not_lt_zero _)
  | succ n ih =>
    obtain ⟨t, ht, hinv⟩ := Loops.foldlM_isSome Inv (f := fun s c => visit kids put n c s)
      (fun c hc u hu => ih (hD.mem d hd c hc)
        (Nat.lt_of_lt_of_le (hD.lt d hd c hc) (Nat.le_of_lt_succ hn)) hu) hs
    obtain ⟨s', hs', hinv'⟩ := hput d hd t hinv
    refine ⟨s', ?_, hinv'⟩
    rw [visit, hkids s hs, ht]
    exact hs'

end PostOrder
