import Mathlib.Logic.Function.Basic
import Mathlib.Data.List.Basic

/-!
# First come, first served

Events carry a key and perhaps a verdict. An event with a verdict registers its key, unless the key is
registered already. After a sequence of events each new key has the verdict of the first of its
events that had one (`foldl_register`).
-/

namespace Register

variable {ε κ β : Type*} [DecidableEq κ]

/-- Register the key of an event, unless it is known. -/
def register (key : ε → κ) (verdict : ε → Option β) (reg : κ → Option β) (e : ε) : κ → Option β :=
  if (reg (key e)).isNone then Function.update reg (key e) (verdict e) else reg

/-- The first verdict for a key. -/
def decision (key : ε → κ) (verdict : ε → Option β) (es : List ε) (n : κ) : Option β :=
  es.findSome? fun e => if key e = n then verdict e else none

variable {key : ε → κ} {verdict : ε → Option β} {n : κ}

theorem register_apply (reg : κ → Option β) (e : ε) (n : κ) :
    register key verdict reg e n = (reg n).or (if key e = n then verdict e else none) := by
  unfold register
  by_cases hn : key e = n
  · subst hn
    cases h : reg (key e) <;> simp [h]
  · rw [if_neg hn, Option.or_none]
    split_ifs
    · exact Function.update_of_ne (Ne.symm hn) _ _
    · rfl

@[simp] theorem decision_nil : decision key verdict [] n = none := rfl

theorem decision_cons (e : ε) (es : List ε) :
    decision key verdict (e :: es) n =
      (if key e = n then verdict e else none).or (decision key verdict es n) := by
  unfold decision
  rw [List.findSome?_cons]
  cases (if key e = n then verdict e else none) <;> rfl

/-- **A key keeps its entry, and a new key gets the first verdict for it.** -/
theorem foldl_register (es : List ε) (reg : κ → Option β) (n : κ) :
    es.foldl (register key verdict) reg n = (reg n).or (decision key verdict es n) := by
  induction es generalizing reg with
  | nil => simp
  | cons e es ih => rw [List.foldl_cons, ih, register_apply, decision_cons, Option.or_assoc]

theorem decision_eq_none_iff {es : List ε} :
    decision key verdict es n = none ↔ ∀ e ∈ es, key e = n → verdict e = none := by
  simp [decision, List.findSome?_eq_none_iff]

/-- When all verdicts for a key agree, that is the decision. -/
theorem decision_eq_some {es : List ε} {v : β}
    (hv : ∀ e ∈ es, key e = n → verdict e = none ∨ verdict e = some v)
    (hex : ∃ e ∈ es, key e = n ∧ verdict e ≠ none) : decision key verdict es n = some v := by
  cases h : decision key verdict es n with
  | none =>
    obtain ⟨e, he, hkey, hne⟩ := hex
    exact absurd (decision_eq_none_iff.1 h e he hkey) hne
  | some w =>
    obtain ⟨e, he, hw⟩ := List.exists_of_findSome?_eq_some h
    split_ifs at hw with hkey
    rcases hv e he hkey with h0 | h1
    · rw [h0] at hw; cases hw
    · rw [← hw, h1]

/-- The first event for the key that has a verdict decides. -/
theorem decision_eq_find?_isSome (es : List ε) : decision key verdict es n =
    (es.find? fun e => key e = n ∧ (verdict e).isSome).bind verdict := by
  induction es with
  | nil => rfl
  | cons e es ih =>
    rw [decision_cons, ih, List.find?_cons]
    by_cases hn : key e = n
    · cases hev : verdict e <;> simp [hn, hev]
    · simp [hn]

/-- When every event has a verdict, the first event for the key decides. -/
theorem decision_eq_find? {es : List ε} (hv : ∀ e ∈ es, (verdict e).isSome) :
    decision key verdict es n = (es.find? fun e => key e = n).bind verdict := by
  have hfirst : (es.find? fun e => key e = n ∧ (verdict e).isSome) = es.find? fun e => key e = n := by
    rw [← List.head?_filter, ← List.head?_filter, List.filter_congr fun e he => ?_]
    simp [hv e he]
  rw [decision_eq_find?_isSome, hfirst]

end Register
