import CellularAutomata.Proofs.Text.Pieces
import CellularAutomata.Species.Program

/-!
# Written programs

A program is written one instruction to a line, with spaces between the words. What is written is
read back if the words have no white space in them and no line looks like a comment, and only then:
all programs that are read are of this kind. So the text of a program is a form in which two texts
agree just when they are read as the same program.
-/

namespace CellularAutomata

namespace Instruction

/-- The instruction is made of words, and the first one does not start a comment. -/
structure Legible (i : Instruction) : Prop where
  /-- The operation is a word. -/
  mnemonic : Text.IsWord i.mnemonic.toList
  /-- The arguments are words. -/
  arguments : ∀ argument ∈ i.arguments, Text.IsWord argument.toList
  /-- The line is no comment. -/
  uncommented : i.mnemonic.toList.head? ≠ some '#'

/-- The instruction on a line is legible. -/
theorem legible_of_ofLine? {line : List Char} {i : Instruction} (h : ofLine? line = some i) :
    i.Legible := by
  unfold ofLine? at h
  cases hwords : Text.words line with
  | nil =>
    rw [hwords] at h
    cases h
  | cons word rest =>
    have hall : ∀ w ∈ word :: rest, Text.IsWord w := by
      intro w hw
      exact Text.isWord_of_mem_words (hwords ▸ hw)
    rw [hwords] at h
    dsimp only at h
    split at h
    next => cases h
    next hcomment =>
      obtain rfl := Option.some.inj h
      refine ⟨?_, ?_, ?_⟩
      · rw [String.toList_ofList]
        exact hall word (List.mem_cons_self ..)
      · intro argument hargument
        obtain ⟨w, hw, rfl⟩ := List.mem_map.mp hargument
        rw [String.toList_ofList]
        exact hall w (List.mem_cons_of_mem _ hw)
      · rwa [String.toList_ofList]

variable {i : Instruction}

/-- The words of a legible instruction are read off its text. -/
theorem Legible.words_text (h : i.Legible) :
    Text.words i.text.toList = i.mnemonic.toList :: i.arguments.map String.toList :=
  Text.words_joined (List.forall_mem_cons.mpr ⟨h.mnemonic, h.arguments⟩)

/-- A legible instruction is read off its text. -/
theorem Legible.ofLine?_text (h : i.Legible) : ofLine? i.text.toList = some i := by
  unfold ofLine?
  rw [h.words_text]
  dsimp only
  rw [if_neg h.uncommented, List.map_map]
  simp

end Instruction

namespace Text

/-- What is joined has only the characters of the texts and of the separator. -/
theorem mem_joined {separator : String} {texts : List String} {c : Char}
    (h : c ∈ (joined separator texts).toList) :
    c ∈ separator.toList ∨ ∃ text ∈ texts, c ∈ text.toList := by
  induction texts with
  | nil => exact absurd h (by simp [joined])
  | cons text rest ih =>
    cases rest with
    | nil => exact Or.inr ⟨text, List.mem_cons_self .., h⟩
    | cons next others =>
      have hjoined : joined separator (text :: next :: others) =
          text ++ separator ++ joined separator (next :: others) := rfl
      rw [hjoined, String.toList_append, String.toList_append, List.mem_append,
        List.mem_append] at h
      rcases h with (htext | hseparator) | hrest
      · exact Or.inr ⟨text, List.mem_cons_self .., htext⟩
      · exact Or.inl hseparator
      · obtain hseparator | ⟨t, ht, hc⟩ := ih hrest
        · exact Or.inl hseparator
        · exact Or.inr ⟨t, List.mem_cons_of_mem _ ht, hc⟩

end Text

namespace Program

/-- All instructions of the program are legible. -/
def Legible (p : Program) : Prop := ∀ i ∈ p.instructions, i.Legible

/-- A legible instruction is written on one line. -/
theorem newline_not_mem_text {i : Instruction} (h : i.Legible) : '\n' ∉ i.text.toList := by
  intro hmem
  obtain hspace | ⟨word, hword, hnewline⟩ := Text.mem_joined hmem
  · revert hspace
    decide
  · have hwords : ∀ word ∈ i.mnemonic :: i.arguments, Text.IsWord word.toList :=
      List.forall_mem_cons.mpr ⟨h.mnemonic, h.arguments⟩
    have hblank := (hwords word hword).2 '\n' hnewline
    revert hblank
    decide

/-- Legible instructions are read off the lines of their text. -/
theorem filterMap_pieces_textOf {is : List Instruction} (h : ∀ i ∈ is, i.Legible) :
    (Text.pieces (· == '\n') (textOf is).toList).filterMap Instruction.ofLine? = is := by
  induction is with
  | nil => rfl
  | cons i rest ih =>
    obtain ⟨hi, hrest⟩ := List.forall_mem_cons.mp h
    have hnewline : "\n".toList = ['\n'] := rfl
    rw [textOf, String.toList_append, String.toList_append, hnewline, List.append_assoc,
      List.singleton_append, Text.pieces_of_not_mem (newline_not_mem_text hi),
      List.filterMap_cons_some hi.ofLine?_text, ih hrest]

/-- Programs that are read are legible. -/
theorem legible_parse (text : String) : (parse text).Legible := by
  intro i hi
  obtain ⟨line, -, hline⟩ := List.mem_filterMap.mp hi
  exact Instruction.legible_of_ofLine? hline

/-- A legible program is read back from its text. -/
theorem Legible.parse_text {p : Program} (h : p.Legible) : parse p.text = p := by
  rw [parse, text, filterMap_pieces_textOf h]

/-- Writing a program that has been read and reading it again changes nothing. Just the programs
that are made of words without white space, none of which starts a comment, are read back from
their texts. So two texts are read as the same program just when these programs are written
alike. -/
theorem text_is_canonical :
    (∀ text, parse (parse text).text = parse text) ∧
    (∀ p : Program, parse p.text = p ↔ p.Legible) ∧
    ∀ text text', parse text = parse text' ↔ (parse text).text = (parse text').text := by
  have hread : ∀ text, parse (parse text).text = parse text :=
    fun text => (legible_parse text).parse_text
  refine ⟨hread, ?_, ?_⟩
  · intro p
    constructor
    · intro h
      rw [← h]
      exact legible_parse p.text
    · exact Legible.parse_text
  · intro text text'
    constructor
    · intro h
      rw [h]
    · intro h
      rw [← hread text, h, hread text']

/-- Comments, blank lines and all other white space are gone when a program is written again. -/
example : (parse "# hop\r\n\r\n\tMOVE  1\r\nGO\u00a01").text = "MOVE 1\nGO 1\n" := by
  decide +kernel

end Program

end CellularAutomata
