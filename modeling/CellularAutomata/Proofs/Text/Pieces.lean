import CellularAutomata.Text.Blank
import Mathlib.Data.List.TakeWhile

/-!
# Pieces and words

Texts are cut at their breaks and put together again. What lies between two breaks has none in
it, so words and lines that are written one after the other with a break between them are the
words and lines that are read.
-/

namespace CellularAutomata.Text

variable {isBreak : Char → Bool} {cs : List Char}

/-- The pieces of a text are those of the split at the breaks. -/
theorem pieces_eq_splitOnP (isBreak : Char → Bool) (cs : List Char) :
    pieces isBreak cs = cs.splitOnP isBreak := by
  induction cs with
  | nil => rfl
  | cons c rest ih =>
    rw [pieces, ih, List.splitOnP_cons_eq_if_modifyHead]
    split
    next => rfl
    next =>
      cases h : rest.splitOnP isBreak with
      | nil => exact absurd h (List.splitOnP_ne_nil isBreak rest)
      | cons first others => rfl

/-- There is no break in a piece. -/
theorem not_isBreak_of_mem_pieces {piece : List Char} (h : piece ∈ pieces isBreak cs) :
    ∀ c ∈ piece, isBreak c = false := by
  induction cs generalizing piece with
  | nil =>
    obtain rfl := List.mem_singleton.mp h
    exact nofun
  | cons c rest ih =>
    rw [pieces] at h
    split at h
    next =>
      rcases List.mem_cons.mp h with rfl | hrest
      · exact nofun
      · exact ih hrest
    next hc =>
      have hc : isBreak c = false := by simpa using hc
      cases hpieces : pieces isBreak rest with
      | nil => exact absurd hpieces (pieces_ne_nil isBreak rest)
      | cons first others =>
        rw [hpieces] at h ih
        rcases List.mem_cons.mp h with rfl | hothers
        · exact List.forall_mem_cons.mpr ⟨hc, ih (List.mem_cons_self ..)⟩
        · exact ih (List.mem_cons_of_mem _ hothers)

/-- A text without breaks is its only piece. -/
theorem pieces_of_not_isBreak (h : ∀ c ∈ cs, isBreak c = false) : pieces isBreak cs = [cs] := by
  rw [pieces_eq_splitOnP, List.splitOnP_eq_singleton h]

/-- What is before a break and what is after it are cut apart from each other. -/
theorem pieces_append_cons (before after : List Char) {c : Char} (hc : isBreak c = true) :
    pieces isBreak (before ++ c :: after) = pieces isBreak before ++ pieces isBreak after := by
  rw [pieces_eq_splitOnP, pieces_eq_splitOnP, pieces_eq_splitOnP,
    List.splitOnP_append_cons before after hc]

/-- What is before the first break is the first piece. -/
theorem pieces_of_not_mem {b : Char} {before : List Char} (h : b ∉ before) (after : List Char) :
    pieces (· == b) (before ++ b :: after) = before :: pieces (· == b) after := by
  rw [pieces_eq_splitOnP, pieces_eq_splitOnP, ← List.splitOn_eq_splitOnP,
    ← List.splitOn_eq_splitOnP, List.splitOn_append_cons_self_of_not_mem h]

/-- A text has two pieces just when it has one break between them. -/
theorem pieces_eq_pair_iff {b : Char} {first second : List Char} :
    pieces (· == b) cs = [first, second] ↔
      cs = first ++ b :: second ∧ b ∉ first ∧ b ∉ second := by
  constructor
  · intro hpieces
    have hnone : ∀ piece ∈ [first, second], b ∉ piece := by
      intro piece hpiece hb
      rw [← hpieces] at hpiece
      simpa using not_isBreak_of_mem_pieces hpiece b hb
    have hjoined : [b].intercalate (cs.splitOn b) = cs := List.intercalate_splitOn b
    rw [List.splitOn_eq_splitOnP, ← pieces_eq_splitOnP, hpieces] at hjoined
    exact ⟨by simpa using hjoined.symm, hnone first (by simp), hnone second (by simp)⟩
  · rintro ⟨rfl, hfirst, hsecond⟩
    rw [pieces_of_not_mem hfirst, pieces_eq_splitOnP, ← List.splitOn_eq_splitOnP,
      List.splitOn_eq_singleton hsecond]

/-- A word is not empty, and there is no white space in it. -/
def IsWord (word : List Char) : Prop := word ≠ [] ∧ ∀ c ∈ word, isBlank c = false

instance (word : List Char) : Decidable (IsWord word) := inferInstanceAs (Decidable (_ ∧ _))

/-- The words of a text are words. -/
theorem isWord_of_mem_words {word : List Char} (h : word ∈ words cs) : IsWord word := by
  obtain ⟨hpiece, hne⟩ := List.mem_filter.mp h
  exact ⟨by simpa using hne, not_isBreak_of_mem_pieces hpiece⟩

/-- A word is its only word. -/
theorem words_of_isWord (h : IsWord cs) : words cs = [cs] := by
  rw [words, pieces_of_not_isBreak h.2]
  simp [h.1]

/-- White space cuts words apart. -/
theorem words_append_cons (before after : List Char) {c : Char} (hc : isBlank c = true) :
    words (before ++ c :: after) = words before ++ words after := by
  rw [words, words, words, pieces_append_cons before after hc, List.filter_append]

/-- Words with spaces between them are read as these words. -/
theorem words_joined {texts : List String} (h : ∀ t ∈ texts, IsWord t.toList) :
    words (joined " " texts).toList = texts.map String.toList := by
  induction texts with
  | nil => rfl
  | cons text rest ih =>
    obtain ⟨htext, hrest⟩ := List.forall_mem_cons.mp h
    cases rest with
    | nil => exact words_of_isWord htext
    | cons next others =>
      have hjoined : joined " " (text :: next :: others) =
          text ++ " " ++ joined " " (next :: others) := rfl
      have hspace : " ".toList = [' '] := rfl
      rw [hjoined, String.toList_append, String.toList_append, hspace, List.append_assoc,
        List.singleton_append, words_append_cons _ _ (by decide), words_of_isWord htext, ih hrest]
      rfl

/-- What is not white space is not taken away from the front. -/
theorem mem_dropWhile_of_not_isBlank {c : Char} (h : c ∈ cs) (hc : isBlank c = false) :
    c ∈ cs.dropWhile isBlank := by
  have hsplit := List.takeWhile_append_dropWhile (p := isBlank) (l := cs)
  rw [← hsplit] at h
  rcases List.mem_append.mp h with hfront | hrest
  · rw [List.mem_takeWhile_imp hfront] at hc
    cases hc
  · exact hrest

/-- What is not white space is not taken away from the ends. -/
theorem mem_trim_of_not_isBlank {c : Char} (h : c ∈ cs) (hc : isBlank c = false) :
    c ∈ trim cs := by
  rw [trim, List.mem_reverse]
  exact mem_dropWhile_of_not_isBlank
    (List.mem_reverse.mpr (mem_dropWhile_of_not_isBlank h hc)) hc

/-- From a text without white space nothing is taken away. -/
theorem trim_of_not_isBlank (h : ∀ c ∈ cs, isBlank c = false) : trim cs = cs := by
  have hkept : ∀ {ds : List Char}, (∀ c ∈ ds, isBlank c = false) → ds.dropWhile isBlank = ds := by
    intro ds hds
    cases ds with
    | nil => rfl
    | cons d ds => exact List.dropWhile_cons_of_neg (by simp [hds d (List.mem_cons_self ..)])
  have hreverse : ∀ c ∈ cs.reverse, isBlank c = false := fun c hc => h c (List.mem_reverse.mp hc)
  rw [trim, hkept h, hkept hreverse, List.reverse_reverse]

end CellularAutomata.Text
