import CellularAutomata.Local.Life
import CellularAutomata.Proofs.Success

/-!
# The letter case of rules

A birth and survival rule is shown in upper case, and what is shown means the same: upper case
changes neither white space nor breaks nor digits, and the letters of the sections are read in
either case.
-/

namespace CellularAutomata

namespace Text

/-- The small letters by their numbers. -/
theorem isLower_iff {c : Char} : c.isLower = true ↔ 97 ≤ c.toNat ∧ c.toNat ≤ 122 := by
  change (decide ('a'.val ≤ c.val) && decide (c.val ≤ 'z'.val)) = true ↔ _
  rw [Bool.and_eq_true, decide_eq_true_iff, decide_eq_true_iff, UInt32.le_iff_toNat_le,
    UInt32.le_iff_toNat_le]
  rfl

/-- The number of a character in upper case. -/
theorem toNat_toUpper (c : Char) :
    c.toUpper.toNat = if c.isLower = true then c.toNat - 32 else c.toNat := by
  have hlower : c.isLower = true ↔ 'a'.val ≤ c.val ∧ c.val ≤ 'z'.val := by
    rw [isLower_iff, UInt32.le_iff_toNat_le, UInt32.le_iff_toNat_le]
    rfl
  unfold Char.toUpper
  split
  next h =>
    have hletter : 97 ≤ c.val.toNat ∧ c.val.toNat ≤ 122 := isLower_iff.mp (hlower.mpr h)
    have hshift : ('A'.val - 'a'.val).toNat = 2 ^ 32 - 32 := by decide
    rw [if_pos (hlower.mpr h)]
    change (c.val + ('A'.val - 'a'.val)).toNat = c.val.toNat - 32
    rw [UInt32.toNat_add, hshift]
    omega
  next h => rw [if_neg (mt hlower.mp h)]

/-- Only small letters change in upper case. -/
theorem toUpper_of_not_isLower {c : Char} (h : ¬ c.isLower = true) : c.toUpper = c := by
  have hsame := toNat_toUpper c
  rw [if_neg h] at hsame
  exact Char.toNat_inj.mp hsame

/-- No small letters are left in upper case. -/
theorem not_isLower_toUpper (c : Char) : ¬ c.toUpper.isLower = true := by
  rw [isLower_iff, toNat_toUpper]
  split
  next h =>
    rw [isLower_iff] at h
    omega
  next h => rwa [isLower_iff] at h

/-- Upper case stays as it is. -/
theorem upper_upper (text : String) : upper (upper text) = upper text := by
  have hchar : Char.toUpper ∘ Char.toUpper = Char.toUpper :=
    funext fun c => toUpper_of_not_isLower (not_isLower_toUpper c)
  rw [upper, upper, String.toList_ofList, List.map_map, hchar]

/-- Upper case changes no white space. -/
theorem isBlank_toUpper (c : Char) : isBlank c.toUpper = isBlank c := by
  by_cases h : c.isLower = true
  · have hupper := toNat_toUpper c
    rw [if_pos h] at hupper
    rw [isLower_iff] at h
    rw [Bool.eq_iff_iff]
    simp [isBlank]
    omega
  · rw [toUpper_of_not_isLower h]

/-- The white space at the ends can be taken away before or after a change that neither makes
white space nor removes any. -/
theorem trim_map {f : Char → Char} (hf : ∀ c, isBlank (f c) = isBlank c) (cs : List Char) :
    trim (cs.map f) = (trim cs).map f := by
  have hblank : isBlank ∘ f = isBlank := funext hf
  rw [trim, trim, List.dropWhile_map, hblank, ← List.map_reverse, List.dropWhile_map, hblank,
    List.map_reverse]

/-- The stretches between breaks are changed one by one if the breaks stay the same. -/
theorem pieces_map {f : Char → Char} {isBreak : Char → Bool}
    (hf : ∀ c, isBreak (f c) = isBreak c) (cs : List Char) :
    pieces isBreak (cs.map f) = (pieces isBreak cs).map (List.map f) := by
  induction cs with
  | nil => rfl
  | cons c rest ih =>
    rw [List.map_cons, pieces, pieces, hf, ih]
    split
    next => rfl
    next => cases pieces isBreak rest <;> rfl

end Text

namespace Life

variable {text rule : String} {cs : List Char}

/-- Digits are the same in upper case, so the numbers of a section are too. -/
theorem readCounts_upper {counts : Std.ExtTreeSet Nat} (h : readCounts text cs = .ok counts) :
    readCounts rule (cs.map Char.toUpper) = .ok counts := by
  induction cs generalizing counts with
  | nil => exact h
  | cons c rest ih =>
    rw [readCounts] at h
    split at h
    next hdigit =>
      obtain ⟨others, hothers, rfl⟩ := map_eq_ok.mp h
      have hlower : ¬ c.isLower = true := by
        have hrange : 48 ≤ c.toNat ∧ c.toNat ≤ 57 := by
          simpa [Char.isDigit, UInt32.le_iff_toNat_le] using (Bool.and_eq_true_iff.mp hdigit).1
        rw [Text.isLower_iff]
        omega
      rw [List.map_cons, Text.toUpper_of_not_isLower hlower, readCounts, if_pos hdigit,
        ih hothers]
      rfl
    next => cases h

/-- A section is read alike in upper case. -/
theorem readSection_upper {sections sections' : Sections} {part : List Char}
    (h : readSection text sections part = .ok sections') :
    readSection rule sections (part.map Char.toUpper) = .ok sections' := by
  unfold readSection at h ⊢
  rw [Text.trim_map Text.isBlank_toUpper]
  dsimp only at h ⊢
  cases hpart : Text.trim part with
  | nil =>
    rw [hpart] at h
    cases h
  | cons c counts =>
    have hletter := Text.toUpper_of_not_isLower (Text.not_isLower_toUpper c)
    rw [hpart] at h
    simp only [List.map_cons, hletter] at h ⊢
    split at h
    next hbirth =>
      rw [if_pos hbirth]
      split at h
      next => cases h
      next hnew =>
        obtain ⟨counts', hcounts, rfl⟩ := map_eq_ok.mp h
        rw [if_neg hnew, readCounts_upper hcounts]
        rfl
    next hbirth =>
      rw [if_neg hbirth]
      split at h
      next hsurvive =>
        rw [if_pos hsurvive]
        split at h
        next => cases h
        next hnew =>
          obtain ⟨counts', hcounts, rfl⟩ := map_eq_ok.mp h
          rw [if_neg hnew, readCounts_upper hcounts]
          rfl
      next => cases h

/-- All sections are read alike in upper case. -/
theorem readSections_upper {sections sections' : Sections} {parts : List (List Char)}
    (h : readSections text sections parts = .ok sections') :
    readSections rule sections (parts.map (List.map Char.toUpper)) = .ok sections' := by
  induction parts generalizing sections with
  | nil => exact h
  | cons part rest ih =>
    rw [readSections] at h
    split at h
    next => cases h
    next next hnext =>
      rw [List.map_cons, readSections, readSection_upper hnext]
      exact ih h

/-- A rule in upper case is the same rule. -/
theorem parse_upper {r : Rule} (h : Rule.parse text = .ok r) :
    Rule.parse (Text.upper text) = .ok r := by
  have hslash : ∀ c : Char, (c.toUpper == '/') = (c == '/') := by
    intro c
    by_cases hlower : c.isLower = true
    · have hupper := Text.toNat_toUpper c
      rw [if_pos hlower] at hupper
      rw [Text.isLower_iff] at hlower
      have hcode : '/'.toNat = 47 := rfl
      rw [Bool.eq_iff_iff, beq_iff_eq, beq_iff_eq, ← Char.toNat_inj, ← Char.toNat_inj]
      omega
    · rw [Text.toUpper_of_not_isLower hlower]
  unfold Rule.parse at h ⊢
  rw [Text.upper, String.toList_ofList, Text.trim_map Text.isBlank_toUpper, Text.pieces_map hslash]
  split at h
  next => cases h
  next birth survive hread =>
    rw [readSections_upper hread]
    exact h
  next => cases h

end Life

end CellularAutomata
