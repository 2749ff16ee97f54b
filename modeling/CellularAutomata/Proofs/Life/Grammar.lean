import CellularAutomata.Proofs.Life.Notation
import CellularAutomata.Proofs.Text.Pieces
import Mathlib.Data.List.Basic
import Std.Data.ExtTreeSet.Lemmas

/-!
# The grammar of rules

Which texts are birth and survival rules and which rules they are: two sections with a slash
between them, one with the letter B and one with the letter S, each followed by the digits of the
numbers that it lists. White space counts neither at the ends nor around the slash. Every other
text is refused as the value of the parameter that holds the rule.
-/

namespace CellularAutomata.Life

/-- The part of a text is the section with a letter for a set of numbers: without the white space
around it, it is the letter in either case and then digits of the numbers from 0 to 8 that are in
the set, each of them at least once. -/
def IsSection (letter : Char) (counts : Std.ExtTreeSet Nat) (part : List Char) : Prop :=
  ∃ c digits, Text.trim part = c :: digits ∧ (c = letter ∨ c = letter.toLower) ∧
    (∀ d ∈ digits, ∃ n ≤ 8, d = n.digitChar) ∧ ∀ n, n ∈ counts ↔ n.digitChar ∈ digits

/-- The text is a rule: a section for birth and one for survival in either order, with a slash
between them. -/
def IsNotation (text : String) (rule : Rule) : Prop :=
  ∃ first second, Text.trim text.toList = first ++ '/' :: second ∧
    (IsSection 'B' rule.birth first ∧ IsSection 'S' rule.survive second ∨
      IsSection 'S' rule.survive first ∧ IsSection 'B' rule.birth second)

variable {text : String}

/-- A number that is listed is written with its own digit. -/
theorem digitChar_inj {m n : Nat} (hn : n ≤ 8) (h : m.digitChar = n.digitChar) : m = n := by
  have hall : ∀ n ≤ 8, ∀ m < 17, m.digitChar = n.digitChar → m = n := by decide
  by_cases hm : m < 17
  · exact hall n hn m hm h
  · have hstar := Nat.digitChar_eq_star.mpr (show 16 ≤ m by omega)
    rw [hstar] at h
    have hlarge := Nat.star_eq_digitChar.mp h
    omega

/-- The digits that are read are those of the numbers from 0 to 8. -/
theorem isDigit_and_digitValue_iff {c : Char} :
    (c.isDigit && decide (Numeral.digitValue c ≤ 8)) = true ↔ ∃ n ≤ 8, c = n.digitChar := by
  have hzero : '0'.toNat = 48 := rfl
  constructor
  · intro h
    obtain ⟨hdigit, hvalue⟩ := Bool.and_eq_true_iff.mp h
    have hrange : 48 ≤ c.toNat ∧ c.toNat ≤ 57 := by
      simpa [Char.isDigit, UInt32.le_iff_toNat_le] using hdigit
    have hvalue := of_decide_eq_true hvalue
    refine ⟨Numeral.digitValue c, hvalue, Char.toNat_inj.mp ?_⟩
    rw [Nat.toNat_digitChar_of_lt_ten (by omega), Numeral.digitValue]
    omega
  · rintro ⟨n, hn, rfl⟩
    rw [Numeral.digitValue, Nat.isDigit_digitChar, Nat.toNat_digitChar_of_lt_ten (by omega),
      Bool.and_eq_true, decide_eq_true_iff, decide_eq_true_iff]
    omega

/-- A digit has the value of its number. -/
theorem digitValue_digitChar {n : Nat} (hn : n ≤ 8) : Numeral.digitValue n.digitChar = n := by
  have hzero : '0'.toNat = 48 := rfl
  rw [Numeral.digitValue, Nat.toNat_digitChar_of_lt_ten (by omega)]
  omega

/-- The numbers of a section are read off their digits. -/
theorem exists_readCounts (text : String) {digits : List Char}
    (h : ∀ d ∈ digits, ∃ n ≤ 8, d = n.digitChar) :
    ∃ counts, readCounts text digits = .ok counts ∧
      ∀ n, n ∈ counts ↔ n.digitChar ∈ digits := by
  induction digits with
  | nil => exact ⟨∅, rfl, fun n => by simp⟩
  | cons d rest ih =>
    obtain ⟨hd, hrest⟩ := List.forall_mem_cons.mp h
    obtain ⟨counts, hread, hmem⟩ := ih hrest
    obtain ⟨k, hk, rfl⟩ := hd
    refine ⟨counts.insert (Numeral.digitValue k.digitChar), ?_, ?_⟩
    · rw [readCounts, if_pos (isDigit_and_digitValue_iff.mpr ⟨k, hk, rfl⟩), hread]
      rfl
    · intro n
      rw [digitValue_digitChar hk, Std.ExtTreeSet.mem_insert, Std.LawfulEqCmp.compare_eq_iff_eq,
        hmem, List.mem_cons]
      have hsame : k = n ↔ n.digitChar = k.digitChar :=
        ⟨fun h => h ▸ rfl, fun h => (digitChar_inj hk h).symm⟩
      exact or_congr_left hsame

/-- Nothing but such digits is read. -/
theorem digits_of_readCounts {digits : List Char} {counts : Std.ExtTreeSet Nat}
    (h : readCounts text digits = .ok counts) : ∀ d ∈ digits, ∃ n ≤ 8, d = n.digitChar := by
  induction digits generalizing counts with
  | nil => exact nofun
  | cons d rest ih =>
    rw [readCounts] at h
    split at h
    next hdigit =>
      obtain ⟨others, hothers, -⟩ := map_eq_ok.mp h
      exact List.forall_mem_cons.mpr ⟨isDigit_and_digitValue_iff.mp hdigit, ih hothers⟩
    next => cases h

/-- The numbers that are read are those whose digits are given. -/
theorem readCounts_eq_ok_iff {digits : List Char} {counts : Std.ExtTreeSet Nat} :
    readCounts text digits = .ok counts ↔
      (∀ d ∈ digits, ∃ n ≤ 8, d = n.digitChar) ∧
        ∀ n : Nat, n ∈ counts ↔ n.digitChar ∈ digits := by
  constructor
  · intro h
    have hdigits := digits_of_readCounts h
    obtain ⟨counts', hread, hmem⟩ := exists_readCounts text hdigits
    obtain rfl : counts = counts' := Except.ok.inj (h.symm.trans hread)
    exact ⟨hdigits, hmem⟩
  · rintro ⟨hdigits, hmem⟩
    obtain ⟨counts', hread, hmem'⟩ := exists_readCounts text hdigits
    have hsame : counts' = counts :=
      Std.ExtTreeSet.ext_mem fun n => (hmem' n).trans (hmem n).symm
    rw [hread, hsame]

/-- A letter is read in either case. -/
theorem toUpper_eq_iff {c letter : Char} (h : letter = 'B' ∨ letter = 'S') :
    c.toUpper = letter ↔ c = letter ∨ c = letter.toLower := by
  obtain ⟨hlower, hlow, hhigh⟩ :
      letter.toLower.toNat = letter.toNat + 32 ∧ 65 ≤ letter.toNat ∧ letter.toNat ≤ 90 := by
    rcases h with rfl | rfl <;> decide
  rw [← Char.toNat_inj, ← Char.toNat_inj, ← Char.toNat_inj, Text.toNat_toUpper, hlower]
  split
  next hc =>
    rw [Text.isLower_iff] at hc
    omega
  next hc =>
    rw [Text.isLower_iff] at hc
    omega

variable {part : List Char} {counts : Std.ExtTreeSet Nat} {sections sections' : Sections}

/-- What is left of a part decides whether it is a section. -/
theorem isSection_iff {letter c : Char} {digits : List Char}
    (hletter : letter = 'B' ∨ letter = 'S') (hpart : Text.trim part = c :: digits) :
    IsSection letter counts part ↔
      c.toUpper = letter ∧ readCounts text digits = .ok counts := by
  rw [readCounts_eq_ok_iff, toUpper_eq_iff hletter, IsSection, hpart]
  constructor
  · rintro ⟨c', digits', heq, hsection⟩
    obtain ⟨rfl, rfl⟩ := List.cons.inj heq
    exact hsection
  · intro h
    exact ⟨c, digits, rfl, h⟩

/-- Nothing is no section. -/
theorem not_isSection_of_trim_eq_nil {letter : Char} (hpart : Text.trim part = []) :
    ¬ IsSection letter counts part := by
  rintro ⟨c, digits, heq, -⟩
  rw [hpart] at heq
  cases heq

/-- There is no slash in a section. -/
theorem IsSection.slash_not_mem {letter : Char} (h : IsSection letter counts part)
    (hletter : letter = 'B' ∨ letter = 'S') : '/' ∉ part := by
  obtain ⟨c, digits, hpart, hc, hdigits, -⟩ := h
  intro hslash
  have hmem := Text.mem_trim_of_not_isBlank hslash (by decide)
  rw [hpart] at hmem
  rcases List.mem_cons.mp hmem with rfl | hdigit
  · rcases hletter with rfl | rfl <;> rcases hc with hc | hc <;> exact absurd hc (by decide)
  · obtain ⟨n, hn, heq⟩ := hdigits '/' hdigit
    have hall : ∀ n ≤ 8, '/' ≠ n.digitChar := by decide
    exact hall n hn heq

/-- The numbers of a section are kept if there was no such section before. -/
theorem ite_isSome_map_eq_ok {old : Option (Std.ExtTreeSet Nat)} {fault : Fault}
    {x : Except Fault (Std.ExtTreeSet Nat)} {f : Std.ExtTreeSet Nat → Sections} :
    (if old.isSome then .error fault else x.map f) = .ok sections' ↔
      ∃ counts, x = .ok counts ∧ old = none ∧ sections' = f counts := by
  cases old with
  | none =>
    rw [if_neg (by simp), map_eq_ok]
    exact exists_congr fun counts => and_congr_right fun _ => by simp [eq_comm]
  | some counts => simp

/-- What one part can do: it is a section with one of the letters that has not been there
before. -/
theorem readSection_eq_ok_iff :
    readSection text sections part = .ok sections' ↔
      (∃ counts, IsSection 'B' counts part ∧ sections.birth = none ∧
        sections' = { sections with birth := some counts }) ∨
      ∃ counts, IsSection 'S' counts part ∧ sections.survive = none ∧
        sections' = { sections with survive := some counts } := by
  unfold readSection
  dsimp only
  cases hpart : Text.trim part with
  | nil =>
    constructor
    · exact nofun
    · rintro (⟨counts, h, -⟩ | ⟨counts, h, -⟩)
      · exact absurd h (not_isSection_of_trim_eq_nil hpart)
      · exact absurd h (not_isSection_of_trim_eq_nil hpart)
  | cons c digits =>
    have hbirth : ∀ counts, IsSection 'B' counts part ↔ c.toUpper = 'B' ∧
        readCounts text digits = .ok counts := fun counts => isSection_iff (by simp) hpart
    have hsurvive : ∀ counts, IsSection 'S' counts part ↔ c.toUpper = 'S' ∧
        readCounts text digits = .ok counts := fun counts => isSection_iff (by simp) hpart
    simp only [hbirth, hsurvive]
    by_cases hB : c.toUpper = 'B'
    · rw [if_pos hB, ite_isSome_map_eq_ok]
      simp [hB]
    · by_cases hS : c.toUpper = 'S'
      · rw [if_neg hB, if_pos hS, ite_isSome_map_eq_ok]
        simp [hS]
      · rw [if_neg hB, if_neg hS]
        simp [hB, hS]

/-- How many sections have been read. -/
def Sections.filled (sections : Sections) : Nat :=
  sections.birth.isSome.toNat + sections.survive.isSome.toNat

/-- Each part that is read is one section more. -/
theorem filled_readSection (h : readSection text sections part = .ok sections') :
    sections'.filled = sections.filled + 1 := by
  obtain ⟨counts, -, hnone, rfl⟩ | ⟨counts, -, hnone, rfl⟩ := readSection_eq_ok_iff.mp h
  · simp [Sections.filled, hnone, Nat.add_comm]
  · simp [Sections.filled, hnone]

/-- The parts are read one after the other. -/
theorem readSections_cons_eq_ok_iff {parts : List (List Char)} :
    readSections text sections (part :: parts) = .ok sections' ↔
      ∃ next, readSection text sections part = .ok next ∧
        readSections text next parts = .ok sections' := by
  rw [readSections]
  cases readSection text sections part <;> simp

/-- So many sections are read as there are parts. -/
theorem filled_readSections {parts : List (List Char)}
    (h : readSections text sections parts = .ok sections') :
    sections'.filled = sections.filled + parts.length := by
  induction parts generalizing sections with
  | nil =>
    obtain rfl := Except.ok.inj h
    rfl
  | cons part rest ih =>
    obtain ⟨next, hnext, hrest⟩ := readSections_cons_eq_ok_iff.mp h
    rw [ih hrest, filled_readSection hnext, List.length_cons]
    omega

/-- Two parts are a rule if one is the section for birth and the other that for survival. -/
theorem readSections_pair_iff {birth survive : Std.ExtTreeSet Nat} {first second : List Char} :
    readSections text ⟨none, none⟩ [first, second] = .ok ⟨some birth, some survive⟩ ↔
      IsSection 'B' birth first ∧ IsSection 'S' survive second ∨
        IsSection 'S' survive first ∧ IsSection 'B' birth second := by
  have hdone : ∀ s : Sections, readSections text s [] = .ok s := fun _ => rfl
  simp only [readSections_cons_eq_ok_iff, readSection_eq_ok_iff, hdone, Except.ok.injEq]
  constructor
  · rintro ⟨s, ⟨b, hfirst, -, rfl⟩ | ⟨b, hfirst, -, rfl⟩, s', hs', heq⟩
    · obtain ⟨b', hsecond, hnone, rfl⟩ | ⟨b', hsecond, hnone, rfl⟩ := hs'
      · cases hnone
      · cases heq
        exact Or.inl ⟨hfirst, hsecond⟩
    · obtain ⟨b', hsecond, hnone, rfl⟩ | ⟨b', hsecond, hnone, rfl⟩ := hs'
      · cases heq
        exact Or.inr ⟨hfirst, hsecond⟩
      · cases hnone
  · rintro (⟨hfirst, hsecond⟩ | ⟨hfirst, hsecond⟩)
    · exact ⟨_, Or.inl ⟨birth, hfirst, trivial, rfl⟩, _, Or.inr ⟨survive, hsecond, rfl, rfl⟩, rfl⟩
    · exact ⟨_, Or.inr ⟨survive, hfirst, trivial, rfl⟩, _, Or.inl ⟨birth, hsecond, rfl, rfl⟩, rfl⟩

variable {rule : Rule}

/-- A rule is read from two sections. -/
theorem parse_eq_ok_iff_readSections :
    Rule.parse text = .ok rule ↔
      readSections text ⟨none, none⟩ (Text.pieces (· == '/') (Text.trim text.toList)) =
        .ok ⟨some rule.birth, some rule.survive⟩ := by
  unfold Rule.parse
  split
  next hread =>
    rw [hread]
    exact ⟨nofun, nofun⟩
  next birth survive hread =>
    rw [hread, Except.ok.injEq, Except.ok.injEq, Sections.mk.injEq, Option.some.injEq,
      Option.some.injEq]
    exact ⟨fun h => h ▸ ⟨rfl, rfl⟩, fun ⟨hb, hs⟩ => hb ▸ hs ▸ rfl⟩
  next sections hnone hread =>
    rw [hread]
    refine ⟨nofun, fun h => ?_⟩
    exact absurd (Except.ok.inj h) (hnone _ _)

/-- Just the texts with two sections and a slash between them are read as rules, and what is read
is what the sections list. -/
theorem parse_eq_ok_iff : Rule.parse text = .ok rule ↔ IsNotation text rule := by
  rw [parse_eq_ok_iff_readSections]
  constructor
  · intro h
    -- Both sections have been filled, one part each, so there are two parts.
    have htwo : (Text.pieces (· == '/') (Text.trim text.toList)).length = 2 := by
      simpa [Sections.filled] using (filled_readSections h).symm
    obtain ⟨first, second, hpair⟩ := List.length_eq_two.mp htwo
    rw [hpair, readSections_pair_iff] at h
    exact ⟨first, second, (Text.pieces_eq_pair_iff.mp hpair).1, h⟩
  · rintro ⟨first, second, heq, hsections⟩
    have hslash : '/' ∉ first ∧ '/' ∉ second := by
      obtain ⟨hfirst, hsecond⟩ | ⟨hfirst, hsecond⟩ := hsections
      · exact ⟨hfirst.slash_not_mem (by simp), hsecond.slash_not_mem (by simp)⟩
      · exact ⟨hfirst.slash_not_mem (by simp), hsecond.slash_not_mem (by simp)⟩
    rw [Text.pieces_eq_pair_iff.mpr ⟨heq, hslash⟩, readSections_pair_iff]
    exact hsections

/-- All that can go wrong is the fault of the parameter that holds the rule. -/
def FaultsInRule {α : Type} (x : Except Fault α) : Prop :=
  ∀ fault, x = .error fault → ∃ reason, fault = ruleFault reason

/-- A fault of the rule is such a fault. -/
theorem faultsInRule_error {α : Type} (reason : ParameterFault) :
    FaultsInRule (.error (ruleFault reason) : Except Fault α) := by
  intro fault h
  exact ⟨reason, (Except.error.inj h).symm⟩

/-- What is made of a result adds no faults. -/
theorem FaultsInRule.map {α β : Type} {x : Except Fault α} (h : FaultsInRule x) (f : α → β) :
    FaultsInRule (x.map f) := by
  cases x with
  | error fault =>
    intro fault' heq
    exact h fault' (congrArg Except.error (Except.error.inj heq))
  | ok a => exact nofun

/-- A character that is no number of neighbors is a fault of the rule. -/
theorem faultsInRule_readCounts (digits : List Char) : FaultsInRule (readCounts text digits) := by
  induction digits with
  | nil => exact nofun
  | cons d rest ih =>
    rw [readCounts]
    split
    next => exact ih.map _
    next => exact faultsInRule_error _

/-- A part that is no section or the same section again is a fault of the rule. -/
theorem faultsInRule_readSection : FaultsInRule (readSection text sections part) := by
  unfold readSection
  dsimp only
  split
  next => exact faultsInRule_error _
  next c digits hpart =>
    split
    next hbirth =>
      split
      next hrepeated => exact faultsInRule_error _
      next hnew => exact (faultsInRule_readCounts digits).map _
    next hbirth =>
      split
      next hsurvive =>
        split
        next hrepeated => exact faultsInRule_error _
        next hnew => exact (faultsInRule_readCounts digits).map _
      next hunknown => exact faultsInRule_error _

/-- Several parts have no other faults than each of them. -/
theorem faultsInRule_readSections {parts : List (List Char)} :
    FaultsInRule (readSections text sections parts) := by
  induction parts generalizing sections with
  | nil => exact nofun
  | cons part rest ih =>
    rw [readSections]
    split
    next fault hfault =>
      intro fault' heq
      exact faultsInRule_readSection fault' (hfault.trans heq)
    next => exact ih

/-- A text that is no rule is a fault of the parameter that holds it. -/
theorem faultsInRule_parse : FaultsInRule (Rule.parse text) := by
  unfold Rule.parse
  split
  next fault hfault =>
    intro fault' heq
    cases heq
    exact faultsInRule_readSections fault hfault
  next => exact nofun
  next => exact faultsInRule_error _

/-- A section as it is written: its letter and the digits of its numbers. -/
def sectionText (letter : Char) (counts : Std.ExtTreeSet Nat) : List Char :=
  letter :: counts.toList.map Nat.digitChar

/-- A section is written without white space. -/
theorem not_isBlank_of_mem_sectionText {letter : Char} (hletter : Text.isBlank letter = false)
    (hcounts : ∀ n ∈ counts, n ≤ 8) : ∀ c ∈ sectionText letter counts, Text.isBlank c = false := by
  have hdigits : ∀ n ≤ 8, Text.isBlank n.digitChar = false := by decide
  refine List.forall_mem_cons.mpr ⟨hletter, List.forall_mem_map.mpr ?_⟩
  intro n hn
  exact hdigits n (hcounts n (Std.ExtTreeSet.mem_toList.mp hn))

/-- What is written for a set of numbers is its section. -/
theorem isSection_sectionText {letter c : Char} (hblank : Text.isBlank c = false)
    (hc : c = letter ∨ c = letter.toLower) (hcounts : ∀ n ∈ counts, n ≤ 8) :
    IsSection letter counts (sectionText c counts) := by
  refine ⟨c, counts.toList.map Nat.digitChar,
    Text.trim_of_not_isBlank (not_isBlank_of_mem_sectionText hblank hcounts), hc, ?_, ?_⟩
  · refine List.forall_mem_map.mpr fun n hn => ?_
    exact ⟨n, hcounts n (Std.ExtTreeSet.mem_toList.mp hn), rfl⟩
  · intro n
    rw [List.mem_map]
    constructor
    · intro hn
      exact ⟨n, Std.ExtTreeSet.mem_toList.mpr hn, rfl⟩
    · rintro ⟨m, hm, heq⟩
      have hm := Std.ExtTreeSet.mem_toList.mp hm
      rwa [digitChar_inj (hcounts m hm) heq.symm]

/-- Two sections without white space are a rule once there is a slash between them. -/
theorem isNotation_ofList {first second : List Char}
    (hfirst : ∀ c ∈ first, Text.isBlank c = false) (hsecond : ∀ c ∈ second, Text.isBlank c = false)
    (h : IsSection 'B' rule.birth first ∧ IsSection 'S' rule.survive second ∨
      IsSection 'S' rule.survive first ∧ IsSection 'B' rule.birth second) :
    IsNotation (String.ofList (first ++ '/' :: second)) rule := by
  refine ⟨first, second, ?_, h⟩
  rw [String.toList_ofList]
  refine Text.trim_of_not_isBlank (List.forall_mem_append.mpr ⟨hfirst, ?_⟩)
  exact List.forall_mem_cons.mpr ⟨by decide, hsecond⟩

/-- A text is read as a rule just when it is one, and then as the rule that it is; every other
text is refused as a value of the parameter that holds the rule. So the sections of any two sets
of numbers from 0 to 8, in either order and with letters in either case, are read as these
sets. -/
theorem parse_reads_grammar :
    (∀ text rule, Rule.parse text = .ok rule ↔ IsNotation text rule) ∧
    (∀ text, (∃ reason, Rule.parse text = .error (.parameter "rule" reason)) ↔
      ¬ ∃ rule, IsNotation text rule) ∧
    ∀ birth survive : Std.ExtTreeSet Nat, (∀ n ∈ birth, n ≤ 8) → (∀ n ∈ survive, n ≤ 8) →
      ∀ b ∈ ['B', 'b'], ∀ s ∈ ['S', 's'],
        Rule.parse (String.ofList (sectionText b birth ++ '/' :: sectionText s survive)) =
          .ok ⟨birth, survive⟩ ∧
        Rule.parse (String.ofList (sectionText s survive ++ '/' :: sectionText b birth)) =
          .ok ⟨birth, survive⟩ := by
  refine ⟨fun _ _ => parse_eq_ok_iff, ?_, ?_⟩
  · intro text
    simp only [← parse_eq_ok_iff]
    cases hparse : Rule.parse text with
    | error fault =>
      obtain ⟨reason, rfl⟩ := faultsInRule_parse fault hparse
      exact ⟨fun _ => nofun, fun _ => ⟨reason, rfl⟩⟩
    | ok rule => exact ⟨nofun, fun hnone => absurd ⟨rule, rfl⟩ hnone⟩
  · intro birth survive hbirth hsurvive b hb s hs
    have hbLetter : b = 'B' ∨ b = 'B'.toLower := by simpa using hb
    have hsLetter : s = 'S' ∨ s = 'S'.toLower := by simpa using hs
    have hbBlank : Text.isBlank b = false := by rcases hbLetter with rfl | rfl <;> decide
    have hsBlank : Text.isBlank s = false := by rcases hsLetter with rfl | rfl <;> decide
    have hbText := not_isBlank_of_mem_sectionText hbBlank hbirth
    have hsText := not_isBlank_of_mem_sectionText hsBlank hsurvive
    have hbSection := isSection_sectionText hbBlank hbLetter hbirth
    have hsSection := isSection_sectionText hsBlank hsLetter hsurvive
    exact ⟨parse_eq_ok_iff.mpr (isNotation_ofList hbText hsText (Or.inl ⟨hbSection, hsSection⟩)),
      parse_eq_ok_iff.mpr (isNotation_ofList hsText hbText (Or.inr ⟨hsSection, hbSection⟩))⟩

/-- The best-known rule is read with its sections the other way round and one letter small. -/
theorem turned_conway_reads_grammar :
    Rule.parse "s23/B3" = .ok Rules.conway.rule := by
  have hbirth : ∀ n ∈ Rules.conway.rule.birth, n ≤ 8 := by
    intro n hn
    have hall : ∀ n ∈ Rules.conway.rule.birth.toList, n ≤ 8 := by decide
    exact hall n (Std.ExtTreeSet.mem_toList.mpr hn)
  have hsurvive : ∀ n ∈ Rules.conway.rule.survive, n ≤ 8 := by
    intro n hn
    have hall : ∀ n ∈ Rules.conway.rule.survive.toList, n ≤ 8 := by decide
    exact hall n (Std.ExtTreeSet.mem_toList.mpr hn)
  have htext : String.ofList (sectionText 's' Rules.conway.rule.survive ++
      '/' :: sectionText 'B' Rules.conway.rule.birth) = "s23/B3" := by decide
  rw [← htext]
  exact (parse_reads_grammar.2.2 _ _ hbirth hsurvive 'B' (by decide) 's' (by decide)).2

end CellularAutomata.Life
