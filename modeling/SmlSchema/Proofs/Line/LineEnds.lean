import SmlSchema.Proofs.Line.Written
import SmlSchema.Proofs.Text.Lines

/-! # Line ends inside a written row

The writer knows one line end, the line feed, and never writes it. Any other line end stands in the
row as it is: the row is cut there when its text is cut into lines, and the line before the cut
breaks off inside a quoted token.
-/

namespace SmlSchema

/-- The text holds a line end other than the line feed. -/
def Text.hasForeignEnd (s : String) : Bool := s.toList.any fun c => isLineEnd c && c != '\n'

namespace Line

open Text (isBlank isLineEnd lineChars hasForeignEnd)

/-- A text with a line end other than a line feed is put in quotes. -/
theorem needsQuotes_of_hasForeignEnd {s : String} (h : hasForeignEnd s) : needsQuotes s := by
  obtain ⟨c, hc, hend⟩ := List.any_eq_true.mp h
  rw [Bool.and_eq_true] at hend
  have hany : (s.toList.any fun c => isBlank c || c == '"' || c == '#') = true :=
    List.any_eq_true.mpr ⟨c, hc, by simp [Text.isBlank_of_isLineEnd hend.1]⟩
  simp [needsQuotes, hany]

theorem isLineEnd_of_mem_quotedText {s : List Char}
    (hs : ∀ c ∈ s, (isLineEnd c && c != '\n') = false) :
    ∀ c ∈ quotedText s, isLineEnd c = false := by
  intro c hc
  obtain ⟨d, hd, hcd⟩ := List.mem_flatMap.mp hc
  rcases Piece.ofChar_cases d with ⟨-, hp⟩ | ⟨-, hp⟩ | ⟨-, hn, hp⟩
  · simp only [hp, Piece.text, List.mem_cons, List.not_mem_nil, or_false] at hcd
    rcases hcd with rfl | rfl <;> decide
  · simp only [hp, Piece.text, List.mem_cons, List.not_mem_nil, or_false] at hcd
    rcases hcd with rfl | rfl | rfl <;> decide
  · simp only [hp, Piece.text, List.mem_singleton] at hcd
    subst hcd
    have hd' := hs c hd
    rw [Bool.and_eq_false_iff] at hd'
    rcases hd' with h | h
    · exact h
    · simp [hn] at h

theorem isLineEnd_of_isWordChar {c : Char} (h : isWordChar c) : isLineEnd c = false := by
  rw [← Bool.not_eq_true]
  intro hend
  have hb := (isWordChar_iff.mp h).1
  rw [Text.isBlank_of_isLineEnd hend] at hb
  cases hb

/-- The token of a text is a word, or quotes around the written characters. -/
theorem text_ofCell_some (s : String) :
    ((Token.ofCell (some s)).text = s.toList ∧ s.toList ≠ [] ∧ ∀ c ∈ s.toList, isWordChar c) ∨
      (Token.ofCell (some s)).text = '"' :: (quotedText s.toList ++ ['"']) := by
  by_cases hs : needsQuotes s = true
  · exact .inr (by simp [Token.ofCell, Token.ofText, hs, Token.text])
  · rw [Bool.not_eq_true] at hs
    obtain ⟨hne, -, hchars⟩ := isWordChar_of_not_needsQuotes hs
    exact .inl ⟨by simp [Token.ofCell, Token.ofText, hs, Token.text], hne, hchars⟩

theorem text_ofCell_head (cell : Cell) :
    ∃ b bs, (Token.ofCell cell).text = b :: bs ∧ isBlank b = false := by
  cases cell with
  | none => exact ⟨'-', [], rfl, by decide⟩
  | some s =>
      rcases text_ofCell_some s with ⟨ht, hne, hchars⟩ | ht
      · obtain ⟨b, bs, hb⟩ := List.exists_cons_of_ne_nil hne
        exact ⟨b, bs, by rw [ht, hb], (isWordChar_iff.mp (hchars b (by simp [hb]))).1⟩
      · exact ⟨'"', _, ht, by decide⟩

/-- The token of a cell does not end with a line end. -/
theorem text_ofCell_last (cell : Cell) :
    ∃ xs c, (Token.ofCell cell).text = xs ++ [c] ∧ isLineEnd c = false := by
  cases cell with
  | none => exact ⟨[], '-', rfl, by decide⟩
  | some s =>
      rcases text_ofCell_some s with ⟨ht, hne, hchars⟩ | ht
      · refine ⟨s.toList.dropLast, s.toList.getLast hne, ?_, ?_⟩
        · rw [ht, List.dropLast_concat_getLast]
        · exact isLineEnd_of_isWordChar (hchars _ (List.getLast_mem hne))
      · exact ⟨'"' :: quotedText s.toList, '"', by rw [ht]; rfl, by decide⟩

/-- The token of a cell without foreign line ends has no line end. -/
theorem isLineEnd_of_mem_text {cell : Cell} (h : ∀ s ∈ cell, hasForeignEnd s = false) :
    ∀ c ∈ (Token.ofCell cell).text, isLineEnd c = false := by
  cases cell with
  | none =>
      intro c hc
      rw [show (Token.ofCell none).text = ['-'] from rfl, List.mem_singleton] at hc
      subst hc
      decide
  | some s =>
      rcases text_ofCell_some s with ⟨ht, -, hchars⟩ | ht
      · intro c hc
        exact isLineEnd_of_isWordChar (hchars c (ht ▸ hc))
      · have hs : ∀ c ∈ s.toList, (isLineEnd c && c != '\n') = false := by
          simpa [hasForeignEnd] using h s rfl
        intro c hc
        rw [ht, List.mem_cons, List.mem_append, List.mem_singleton] at hc
        rcases hc with rfl | hc | rfl
        · decide
        · exact isLineEnd_of_mem_quotedText hs c hc
        · decide

/-! ## Rows -/

/-- None of the cells holds a line end other than the line feed. -/
def Plain (cells : List Cell) : Prop := ∀ s, some s ∈ cells → hasForeignEnd s = false

theorem Plain.of_subset {a b : List Cell} (h : Plain b) (hab : a ⊆ b) : Plain a :=
  fun s hs => h s (hab hs)

theorem isLineEnd_of_mem_leadText {cells : List Cell} (h : Plain cells) :
    ∀ c ∈ leadText cells, isLineEnd c = false := by
  intro c hc
  obtain ⟨cell, hcell, hc⟩ := List.mem_flatMap.mp hc
  rcases List.mem_append.mp hc with hc | hc
  · exact isLineEnd_of_mem_text (fun s hs => h s (by rw [← Option.mem_def.mp hs]; exact hcell)) c hc
  · rw [List.mem_singleton.mp hc]
    decide

/-- A row is that of all cells but the last one, followed by the last one. -/
theorem rowText_eq_leadText {cells : List Cell} (h : cells ≠ []) :
    rowText cells = leadText cells.dropLast ++ (Token.ofCell (cells.getLast h)).text := by
  rw [← rowText_singleton, ← rowText_append, List.dropLast_concat_getLast]

/-- The row of plain cells has no line end. -/
theorem isLineEnd_of_mem_rowText {cells : List Cell} (h : Plain cells) :
    ∀ c ∈ rowText cells, isLineEnd c = false := by
  by_cases hne : cells = []
  · subst hne
    intro c hc
    cases hc
  · intro c hc
    rw [rowText_eq_leadText hne, List.mem_append] at hc
    rcases hc with hc | hc
    · exact isLineEnd_of_mem_leadText (h.of_subset (List.dropLast_subset cells)) c hc
    · refine isLineEnd_of_mem_text (fun s hs => h s ?_) c hc
      rw [← Option.mem_def.mp hs]
      exact List.getLast_mem hne

/-- A row does not begin with a blank. -/
theorem rowText_head {cells : List Cell} (h : cells ≠ []) :
    ∃ b bs, rowText cells = b :: bs ∧ isBlank b = false := by
  obtain ⟨a, more, rfl⟩ := List.exists_cons_of_ne_nil h
  obtain ⟨b, bs, ht, hb⟩ := text_ofCell_head a
  cases more with
  | nil => exact ⟨b, bs, by rw [rowText_singleton, ht], hb⟩
  | cons d ds => exact ⟨b, bs ++ ' ' :: rowText (d :: ds), by rw [rowText_cons_cons, ht]; rfl, hb⟩

theorem not_newline_of_not_end {cs : List Char} (h : ∀ c ∈ cs, isBlank c ∧ isLineEnd c = false) :
    '\n' ∉ cs := fun hn => absurd (h '\n' hn).2 (by decide)

/-- A row behind a margin is one line, after lines that are blank. -/
theorem lineChars_row {margin : List Char} (hm : ∀ c ∈ margin, isBlank c) {cells : List Cell}
    (hne : cells ≠ []) (h : Plain cells) :
    ∃ blanks line, lineChars (margin ++ rowText cells ++ ['\n']) = blanks ++ [line] ∧
      (∀ l ∈ blanks, readChars l = .ok []) ∧ readChars line = .ok cells := by
  obtain ⟨b, bs, hrow, hb⟩ := rowText_head hne
  obtain ⟨blanks, rest, hblanks, hrest, hcut⟩ := Text.lineChars_margin hm hb
  refine ⟨blanks, rest ++ rowText cells, ?_, ?_, ?_⟩
  · have hline : ∀ c ∈ rest ++ rowText cells, isLineEnd c = false := by
      intro c hc
      rcases List.mem_append.mp hc with hc | hc
      · exact (hrest c hc).2
      · exact isLineEnd_of_mem_rowText h c hc
    have h := hcut (bs ++ ['\n'])
    rw [← List.cons_append, ← hrow, ← List.append_assoc, ← List.append_assoc,
      Text.lineChars_of_not_end hline] at h
    exact h
  · intro l hl
    exact readChars_blank (fun c hc => (hblanks l hl c hc).1)
      (not_newline_of_not_end (hblanks l hl))
  · exact readChars_rowText (fun c hc => (hrest c hc).1) (not_newline_of_not_end hrest) cells

/-- A row with a foreign line end is cut inside the quoted token of the first such cell. -/
theorem rowText_foreign {cells : List Cell} {s : String} (hs : some s ∈ cells)
    (hf : hasForeignEnd s) :
    ∃ before pre c rest, Plain before ∧ (∀ d ∈ pre, (isLineEnd d && d != '\n') = false) ∧
      isLineEnd c ∧ rowText cells = leadText before ++ '"' :: quotedText pre ++ c :: rest := by
  -- the first cell with a foreign line end, and the first such line end in it
  have hcell : (cells.find? fun x => x.any hasForeignEnd).isSome :=
    List.find?_isSome.mpr ⟨some s, hs, hf⟩
  obtain ⟨cell, hcell⟩ := Option.isSome_iff_exists.mp hcell
  obtain ⟨hany, before, after, rfl, hbefore⟩ := List.find?_eq_some_iff_append.mp hcell
  obtain ⟨t, rfl⟩ : ∃ t, cell = some t := by
    cases cell with
    | none => cases hany
    | some t => exact ⟨t, rfl⟩
  obtain ⟨d, hd, hdf⟩ := List.any_eq_true.mp hany
  have hchar : (t.toList.find? fun c => isLineEnd c && c != '\n').isSome :=
    List.find?_isSome.mpr ⟨d, hd, hdf⟩
  obtain ⟨c, hc⟩ := Option.isSome_iff_exists.mp hchar
  obtain ⟨hcf, pre, post, hsplit, hpre⟩ := List.find?_eq_some_iff_append.mp hc
  rw [Bool.and_eq_true, bne_iff_ne] at hcf
  have hpiece : (Piece.ofChar c).text = [c] := by
    have hq : c ≠ '"' := by
      rintro rfl
      exact absurd hcf.1 (by decide)
    simp [Piece.ofChar, hq, hcf.2, Piece.text]
  have htext : (Token.ofCell (some t)).text =
      '"' :: (quotedText pre ++ c :: (quotedText post ++ ['"'])) := by
    simp [Token.ofCell, Token.ofText, needsQuotes_of_hasForeignEnd hany, Token.text, hsplit, hpiece]
  obtain ⟨more, hmore⟩ :
      ∃ more, rowText (some t :: after) = (Token.ofCell (some t)).text ++ more := by
    cases after with
    | nil => exact ⟨[], by simp⟩
    | cons a after => exact ⟨_, rowText_cons_cons _ _ _⟩
  refine ⟨before, pre, c, quotedText post ++ ['"'] ++ more, fun u hu => ?_,
    fun e he => by rw [← Bool.not_eq_true']; exact hpre e he, hcf.1, ?_⟩
  · simpa using hbefore (some u) hu
  · rw [rowText_append, hmore, htext]
    simp

/-- A row with a foreign line end has a line that is refused. -/
theorem lineChars_row_foreign {margin : List Char} (hm : ∀ c ∈ margin, isBlank c)
    {cells : List Cell} {s : String} (hs : some s ∈ cells) (hf : hasForeignEnd s) :
    ∃ l ∈ lineChars (margin ++ rowText cells ++ ['\n']), ∃ flaw, readChars l = .error flaw := by
  obtain ⟨before, pre, c, tail, hbefore, hpre, hc, hrow⟩ := rowText_foreign hs hf
  obtain ⟨b, bs, hhead, hb⟩ := rowText_head (List.ne_nil_of_mem hs)
  obtain ⟨blanks, rest, -, hrest, hcut⟩ := Text.lineChars_margin hm hb
  have hline : ∀ d ∈ rest ++ (leadText before ++ '"' :: quotedText pre), isLineEnd d = false := by
    intro d hd
    rw [List.mem_append, List.mem_append, List.mem_cons] at hd
    rcases hd with hd | hd | rfl | hd
    · exact (hrest d hd).2
    · exact isLineEnd_of_mem_leadText hbefore d hd
    · decide
    · exact isLineEnd_of_mem_quotedText hpre d hd
  obtain ⟨ls, hls⟩ := Text.lineChars_of_end hline hc (tail ++ ['\n'])
  refine ⟨rest ++ (leadText before ++ '"' :: quotedText pre), ?_,
    readChars_unclosed (fun d hd => (hrest d hd).1) (not_newline_of_not_end hrest) before pre⟩
  have hjoin : margin ++ rowText cells ++ ['\n'] = margin ++ b :: (bs ++ ['\n']) := by
    rw [hhead, List.append_assoc, List.cons_append]
  have hbody : rest ++ b :: (bs ++ ['\n']) =
      rest ++ (leadText before ++ '"' :: quotedText pre) ++ c :: (tail ++ ['\n']) := by
    rw [← List.cons_append, ← hhead, hrow]
    simp
  rw [hjoin, hcut, hbody, hls]
  exact List.mem_append_right blanks List.mem_cons_self

end Line

end SmlSchema
