import Mathlib.Data.List.Nodup

/-!
# Lists whose elements have a key

A list whose elements are found and removed by a key. Nothing keeps two elements from having one
key; where the keys are distinct, an operation by key is an operation on one element.

* `find?_key_eq`: the element with a key is the one that is found;
* `filter_key_ne`: removing every element with a key removes one element, and the rest stays as it
  is;
* `map_replace`, `filter_replace`, `find?_replace`: replacing elements, as seen through a function,
  a filter or a search.
-/

namespace Keyed

variable {α β κ : Type*} [DecidableEq κ] {key : α → κ}

/-- **Searching by key** finds the element that has it, when no other element has. -/
theorem find?_key_eq {l : List α} {a : α} (hnodup : (l.map key).Nodup) (hmem : a ∈ l) :
    l.find? (fun x => key x = key a) = some a := by
  have hsome : (l.find? fun x => key x = key a).isSome = true :=
    List.find?_isSome.mpr ⟨a, hmem, by simp⟩
  obtain ⟨b, hb⟩ := Option.isSome_iff_exists.mp hsome
  have hkey : key b = key a := by simpa using List.find?_some hb
  rw [hb, List.inj_on_of_nodup_map hnodup (List.mem_of_find?_eq_some hb) hmem hkey]

/-- **Removing by key.** Every element with the key of `a` goes, and that is `a` alone. -/
theorem filter_key_ne {before after : List α} {a : α}
    (hnodup : ((before ++ a :: after).map key).Nodup) :
    (before ++ a :: after).filter (fun x => key x ≠ key a) = before ++ after := by
  rw [List.map_append, List.map_cons, List.nodup_middle, ← List.map_append,
    List.nodup_cons] at hnodup
  have hother : ∀ x ∈ before ++ after, key x ≠ key a := by
    intro x hx hkey
    exact hnodup.1 (hkey ▸ List.mem_map_of_mem hx)
  rw [List.filter_append, List.filter_cons_of_neg (by simp), ← List.filter_append]
  apply List.filter_eq_self.mpr
  intro x hx
  simpa using hother x hx

section Replace

variable {p : α → Prop} [DecidablePred p] {f : α → α} {l : List α}

/-- A function that does not tell a replaced element from the one before does not see the
replacement. -/
theorem map_replace {g : α → β} (hg : ∀ x ∈ l, p x → g (f x) = g x) :
    (l.map fun x => if p x then f x else x).map g = l.map g := by
  rw [List.map_map]
  apply List.map_congr_left
  intro x hx
  rw [Function.comp_apply]
  split
  · next hp => exact hg x hx hp
  · rfl

/-- The elements that are not replaced are not touched. -/
theorem filter_replace (hf : ∀ x, p x → p (f x)) :
    (l.map fun x => if p x then f x else x).filter (fun x => ¬ p x)
      = l.filter (fun x => ¬ p x) := by
  induction l with
  | nil => rfl
  | cons x l ih =>
    rw [List.map_cons]
    by_cases hp : p x
    · rw [if_pos hp, List.filter_cons_of_neg (by simpa using hf x hp),
        List.filter_cons_of_neg (by simpa using hp), ih]
    · rw [if_neg hp, List.filter_cons_of_pos (by simpa using hp),
        List.filter_cons_of_pos (by simpa using hp), ih]

/-- The first element to be replaced is found where it was. -/
theorem find?_replace (hf : ∀ x, p x → p (f x)) :
    (l.map fun x => if p x then f x else x).find? (fun x => p x)
      = (l.find? fun x => p x).map fun x => if p x then f x else x := by
  rw [List.find?_map]
  congr 2
  funext x
  rw [Function.comp_apply]
  by_cases hp : p x
  · rw [if_pos hp, decide_eq_true (hf x hp), decide_eq_true hp]
  · rw [if_neg hp]

/-- A search for other elements does not see the replacement. -/
theorem find?_replace_of_disjoint {q : α → Prop} [DecidablePred q]
    (hf : ∀ x, p x → ¬ q x ∧ ¬ q (f x)) :
    (l.map fun x => if p x then f x else x).find? (fun x => q x) = l.find? fun x => q x := by
  induction l with
  | nil => rfl
  | cons x l ih =>
    rw [List.map_cons]
    by_cases hp : p x
    · obtain ⟨hbefore, hafter⟩ := hf x hp
      rw [if_pos hp, List.find?_cons_of_neg (by simpa using hafter),
        List.find?_cons_of_neg (by simpa using hbefore), ih]
    · rw [if_neg hp]
      by_cases hq : q x
      · rw [List.find?_cons_of_pos (by simpa using hq), List.find?_cons_of_pos (by simpa using hq)]
      · rw [List.find?_cons_of_neg (by simpa using hq), List.find?_cons_of_neg (by simpa using hq),
          ih]

end Replace

end Keyed
