import Mathlib.Data.List.Induction

/-!
# Settings, of which the last one is in force

A reader goes through a list of lines, each of which may set a value, and the last one that does is in
force. Two readers of the same lines end with the same value if and only if they do so at the last line
that sets the value for one of them: `inForce_eq_iff`. This says where to look when one of the two misreads
some of the lines, as a reader does that takes long lines in pieces.
-/

namespace Settings

variable {α β : Type*}

/-- The value in force behind the lines, where `d` is the one in front of them. -/
def inForce (f : α → Option β) (d : β) (ls : List α) : β := ls.foldl (fun v x => (f x).getD v) d

/-- What the last piece that sets the value sets it to. -/
def lastSet (f : α → Option β) (pieces : List α) : Option β := inForce (fun x => (f x).map some) none pieces

/-- Behind `x`, which one of the readers takes for a setting, both have the same value. -/
def SameEffect (f g : α → Option β) (d : β) (before : List α) (x : α) : Prop :=
  match f x, g x with
  | none, none => True
  | some v, some w => v = w
  | some v, none => v = inForce g d before
  | none, some w => inForce f d before = w

variable {f g : α → Option β} {d : β} {x : α}

theorem inForce_append (f : α → Option β) (d : β) (ls ls' : List α) :
    inForce f d (ls ++ ls') = inForce f (inForce f d ls) ls' :=
  List.foldl_append

theorem inForce_concat (f : α → Option β) (d : β) (ls : List α) (x : α) :
    inForce f d (ls ++ [x]) = (f x).getD (inForce f d ls) :=
  inForce_append f d ls [x]

/-- What is in force behind some pieces. -/
theorem getD_lastSet (f : α → Option β) (d : β) (pieces : List α) :
    (lastSet f pieces).getD d = inForce f d pieces := by
  induction pieces using List.reverseRecOn with
  | nil => rfl
  | append_singleton ls x ih =>
    unfold lastSet at ih ⊢
    rw [inForce_concat, inForce_concat, ← ih]
    cases f x <;> rfl

theorem lastSet_singleton (f : α → Option β) (x : α) : lastSet f [x] = f x := by
  change ((f x).map some).getD none = f x
  cases f x <;> rfl

/-- A reader that takes each line in pieces. -/
theorem inForce_flatMap {γ : Type*} (f : α → Option β) (d : β) (pieces : γ → List α) (ls : List γ) :
    inForce f d (ls.flatMap pieces) = inForce (fun l => lastSet f (pieces l)) d ls := by
  induction ls generalizing d with
  | nil => rfl
  | cons l ls ih =>
    rw [List.flatMap_cons, inForce_append, ih, ← getD_lastSet f d (pieces l)]
    rfl

/-- **Where two readers agree**: they do at the last line that one of them takes for a setting. Lines that
both read alike need not be looked at. -/
theorem inForce_eq_iff {ls : List α} (misread : α → Prop) (halike : ∀ x ∈ ls, ¬misread x → f x = g x) :
    inForce f d ls = inForce g d ls ↔ ∀ before x after, ls = before ++ x :: after → misread x →
      (∀ y ∈ after, f y = none ∧ g y = none) → SameEffect f g d before x := by
  induction ls using List.reverseRecOn with
  | nil => exact iff_of_true rfl fun before x after h => by simp at h
  | append_singleton ls x ih =>
    have hprefix := ih fun y hy => halike y (by simp [hy])
    rw [inForce_concat, inForce_concat]
    by_cases hnone : f x = none ∧ g x = none
    · -- the last line sets nothing
      rw [hnone.1, hnone.2, Option.getD_none, Option.getD_none, hprefix]
      constructor
      · intro h before y after hsplit hmis hafter
        rcases List.eq_nil_or_concat after with rfl | ⟨after', z, rfl⟩
        · obtain ⟨rfl, hy⟩ := List.append_inj' hsplit rfl
          rw [← (List.cons.inj hy).1, SameEffect, hnone.1, hnone.2]
          trivial
        · have hsplit' : ls ++ [x] = (before ++ y :: after') ++ [z] := by simp [hsplit]
          exact h before y after' (List.append_inj' hsplit' rfl).1 hmis fun w hw => hafter w (by simp [hw])
      · intro h before y after hsplit hmis hafter
        refine h before y (after ++ [x]) (by simp [hsplit]) hmis fun w hw => ?_
        rcases List.mem_append.1 hw with hw | hw
        · exact hafter w hw
        · rw [List.mem_singleton.1 hw]
          exact hnone
    · -- the last line decides
      have honly : ∀ before y after, ls ++ [x] = before ++ y :: after → (∀ z ∈ after, f z = none ∧ g z = none) →
          before = ls ∧ y = x := by
        intro before y after hsplit hafter
        rcases List.eq_nil_or_concat after with rfl | ⟨after', z, rfl⟩
        · obtain ⟨rfl, hy⟩ := List.append_inj' hsplit rfl
          exact ⟨rfl, (List.cons.inj hy).1.symm⟩
        · have hsplit' : ls ++ [x] = (before ++ y :: after') ++ [z] := by simp [hsplit]
          obtain ⟨-, hz⟩ := List.append_inj' hsplit' rfl
          rw [(List.cons.inj hz).1] at hnone
          exact absurd (hafter z (by simp)) hnone
      have heffect : (f x).getD (inForce f d ls) = (g x).getD (inForce g d ls) ↔ SameEffect f g d ls x := by
        unfold SameEffect
        cases hf : f x <;> cases hg : g x
        · exact absurd ⟨hf, hg⟩ hnone
        all_goals rfl
      rw [heffect]
      constructor
      · intro h before y after hsplit _ hafter
        obtain ⟨rfl, rfl⟩ := honly before y after hsplit hafter
        exact h
      · intro h
        by_cases hmis : misread x
        · exact h ls x [] rfl hmis (by simp)
        · have hsame := halike x (by simp) hmis
          cases hg : g x with
          | none => exact absurd ⟨hsame.trans hg, hg⟩ hnone
          | some w =>
            unfold SameEffect
            rw [hsame, hg]

end Settings
