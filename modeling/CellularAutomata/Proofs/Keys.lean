import Mathlib.Logic.Function.Defs
import Std.Data.ExtTreeMap

/-!
# Maps with other keys

A map whose keys are changed. As long as different keys stay different, every value is found
under its new key, and nothing is found under a key that is not new.
-/

namespace CellularAutomata

variable {κ κ' β γ : Type} [Ord κ] [Std.TransOrd κ] [Std.LawfulEqOrd κ] [Ord κ'] [Std.TransOrd κ']
  [Std.LawfulEqOrd κ'] {f : κ → κ'} {m : Std.ExtTreeMap κ β}

/-- A map whose keys have been changed. -/
def mapKeys (f : κ → κ') (m : Std.ExtTreeMap κ β) : Std.ExtTreeMap κ' β :=
  .ofList (m.toList.map fun entry => (f entry.1, entry.2))

/-- The keys of the entries of a map are in the map. -/
theorem fst_mem_of_mem_toList {entry : κ × β} (h : entry ∈ m.toList) :
    entry.1 ∈ m := by
  rw [Std.ExtTreeMap.mem_iff_isSome_getElem?,
    Std.ExtTreeMap.mem_toList_iff_getElem?_eq_some.mp h]
  rfl

/-- Under a new key there is what was under the old one. -/
theorem getElem?_mapKeys_of_some (hf : ∀ k ∈ m, ∀ k' ∈ m, f k = f k' → k = k') {k : κ} {v : β}
    (hk : m[k]? = some v) : (mapKeys f m)[f k]? = some v := by
  have hdistinct : (m.toList.map fun entry => (f entry.1, entry.2)).Pairwise
      fun a b => ¬ compare a.1 b.1 = .eq := by
    refine List.pairwise_map.mpr (Std.ExtTreeMap.distinct_keys_toList.imp_of_mem ?_)
    intro a b ha hb hab heq
    rw [Std.LawfulEqCmp.compare_eq_iff_eq] at hab heq
    exact hab (hf a.1 (fst_mem_of_mem_toList ha) b.1 (fst_mem_of_mem_toList hb) heq)
  refine Std.ExtTreeMap.getElem?_ofList_of_mem Std.ReflCmp.compare_self hdistinct ?_
  exact List.mem_map.mpr ⟨(k, v), Std.ExtTreeMap.mem_toList_iff_getElem?_eq_some.mpr hk, rfl⟩

/-- Under other keys there is nothing. -/
theorem getElem?_mapKeys_of_ne [DecidableEq κ'] {k : κ'} (hk : ∀ old ∈ m, f old ≠ k) :
    (mapKeys f m)[k]? = none := by
  refine Std.ExtTreeMap.getElem?_ofList_of_contains_eq_false ?_
  rw [List.map_map, ← Bool.not_eq_true, List.contains_iff_mem, List.mem_map]
  rintro ⟨⟨old, v⟩, hmem, hkey⟩
  exact hk old (fst_mem_of_mem_toList hmem) hkey

/-- If different keys always stay different, then under each new key there is what was under
the old one, if there was anything. -/
theorem getElem?_mapKeys [DecidableEq κ'] (hf : Function.Injective f) (k : κ) :
    (mapKeys f m)[f k]? = m[k]? := by
  cases hk : m[k]? with
  | some v => exact getElem?_mapKeys_of_some (fun _ _ _ _ h => hf h) hk
  | none =>
    refine getElem?_mapKeys_of_ne fun old hold hsame => ?_
    obtain rfl : old = k := hf hsame
    rw [Std.ExtTreeMap.mem_iff_isSome_getElem?, hk] at hold
    cases hold

/-- The map of the entries of a map is the map. -/
theorem ofList_toList [DecidableEq κ] (m : Std.ExtTreeMap κ β) :
    Std.ExtTreeMap.ofList m.toList = m := by
  have hsame : mapKeys id m = m :=
    Std.ExtTreeMap.ext_getElem? fun k => getElem?_mapKeys Function.injective_id k
  rw [mapKeys] at hsame
  simpa using hsame

/-- Keys can be changed before or after the values are. -/
theorem map_mapKeys [DecidableEq κ'] (hf : Function.Injective f) (g : β → γ) :
    (mapKeys f m).map (fun _ v => g v) = mapKeys f (m.map fun _ v => g v) := by
  refine Std.ExtTreeMap.ext_getElem? fun k => ?_
  rw [Std.ExtTreeMap.getElem?_map]
  by_cases hk : ∃ old, f old = k
  · obtain ⟨old, rfl⟩ := hk
    rw [getElem?_mapKeys hf, getElem?_mapKeys hf, Std.ExtTreeMap.getElem?_map]
  · have hother : ∀ (m : Std.ExtTreeMap κ γ), ∀ old ∈ m, f old ≠ k :=
      fun _ old _ hold => hk ⟨old, hold⟩
    rw [getElem?_mapKeys_of_ne fun old _ hold => hk ⟨old, hold⟩, getElem?_mapKeys_of_ne (hother _)]
    rfl

/-- A new key is in the map if the old one is. -/
theorem contains_mapKeys [DecidableEq κ'] (hf : Function.Injective f) (k : κ) :
    (mapKeys f m).contains (f k) = m.contains k := by
  rw [Std.ExtTreeMap.contains_eq_isSome_getElem?, Std.ExtTreeMap.contains_eq_isSome_getElem?,
    getElem?_mapKeys hf]

end CellularAutomata
