import Mathlib.Data.List.Basic
import Mathlib.Logic.Function.Basic

/-!
# Partial maps that are changed at one key

What is found in a map after a key has been bound or unbound, for functions to options and
for ordered maps.
-/

namespace PartialMap

variable {Key Value : Type*} [DecidableEq Key] {map : Key → Option Value} {key other : Key}
  {value result : Value}

theorem bind_eq_some_iff :
    Function.update map key (some value) other = some result ↔
      (other = key ∧ value = result) ∨ (other ≠ key ∧ map other = some result) := by
  by_cases same : other = key
  · subst same
    simp only [Function.update_self, Option.some.injEq, true_and, ne_eq, not_true_eq_false,
      false_and, or_false]
  · simp only [Function.update_of_ne same, same, false_and, ne_eq, not_false_eq_true, true_and,
      false_or]

theorem unbind_eq_some_iff :
    Function.update map key none other = some result ↔ other ≠ key ∧ map other = some result := by
  by_cases same : other = key
  · subst same
    simp only [Function.update_self, reduceCtorEq, ne_eq, not_true_eq_false, false_and]
  · simp only [Function.update_of_ne same, ne_eq, same, not_false_eq_true, true_and]

section Ordered

variable {Key Value : Type} [Ord Key] [Std.TransOrd Key] [Std.LawfulEqOrd Key]
  {map : Std.TreeMap Key Value compare} {key other : Key} {value result : Value}

theorem insert_eq_some_iff :
    (map.insert key value)[other]? = some result ↔
      (other = key ∧ value = result) ∨ (other ≠ key ∧ map[other]? = some result) := by
  rw [Std.TreeMap.getElem?_insert]
  by_cases same : other = key
  · subst same
    simp only [Std.ReflCmp.compare_self, if_true, Option.some.injEq, true_and, ne_eq,
      not_true_eq_false, false_and, or_false]
  · have apart : compare key other ≠ .eq := fun equal =>
      same (Std.LawfulEqCmp.compare_eq_iff_eq.mp equal).symm
    simp only [apart, if_false, same, false_and, ne_eq, not_false_eq_true, true_and, false_or]

theorem erase_eq_some_iff :
    (map.erase key)[other]? = some result ↔ other ≠ key ∧ map[other]? = some result := by
  rw [Std.TreeMap.getElem?_erase]
  by_cases same : other = key
  · subst same
    simp only [Std.ReflCmp.compare_self, if_true, reduceCtorEq, ne_eq, not_true_eq_false,
      false_and]
  · have apart : compare key other ≠ .eq := fun equal =>
      same (Std.LawfulEqCmp.compare_eq_iff_eq.mp equal).symm
    simp only [apart, if_false, ne_eq, same, not_false_eq_true, true_and]

/-- The values of a map, in the order of their keys. -/
def values (map : Std.TreeMap Key Value compare) : List Value :=
  map.toList.map Prod.snd

theorem mem_values_iff : value ∈ values map ↔ ∃ key : Key, map[key]? = some value := by
  unfold values
  rw [List.mem_map]
  constructor
  · rintro ⟨⟨key, _⟩, member, rfl⟩
    exact ⟨key, Std.TreeMap.mem_toList_iff_getElem?_eq_some.mp member⟩
  · rintro ⟨key, found⟩
    exact ⟨(key, value), Std.TreeMap.mem_toList_iff_getElem?_eq_some.mpr found, rfl⟩

/-- No value occurs twice when no two keys hold the same value. -/
theorem nodup_values
    (injective : ∀ (key other : Key) value, map[key]? = some value → map[other]? = some value →
      key = other) : (values map).Nodup := by
  unfold values List.Nodup
  rw [List.pairwise_map]
  have distinct : map.toList.Pairwise fun a b => ¬ compare a.1 b.1 = .eq :=
    Std.TreeMap.distinct_keys_toList
  refine distinct.imp_of_mem ?_
  rintro ⟨key, value⟩ ⟨other, _⟩ member otherMember apart rfl
  rw [Std.TreeMap.mem_toList_iff_getElem?_eq_some] at member otherMember
  cases injective key other value member otherMember
  exact apart Std.ReflCmp.compare_self

end Ordered

end PartialMap
