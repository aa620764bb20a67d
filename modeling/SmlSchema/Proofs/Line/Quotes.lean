import SmlSchema.Proofs.Line.Grammar
import SmlSchema.Proofs.Line.Written

/-! # When quotes are needed

A text stands in a line without quotes exactly if the line that consists of nothing but the text is
read as this text. A quoted token is longer than what it stands for, so that among the lines with a
single cell only a word can be read as itself.
-/

namespace SmlSchema.Line

/-! ## Tokens that stand for themselves -/

theorem Piece.length_text_pos (p : Piece) : 0 < p.text.length := by
  cases p with
  | plain c => exact Nat.one_pos
  | quote => exact Nat.two_pos
  | lineBreak => exact Nat.succ_pos 2

namespace Token

/-- The quotes come on top of the pieces, and no piece is shorter than its character. -/
theorem length_lt_string (ps : List Piece) : ps.length < (string ps).text.length := by
  rw [text, List.length_cons, List.length_append, List.length_singleton, List.length_flatMap]
  have hpieces : ps.length ≤ (ps.map fun p => p.text.length).sum := by
    induction ps with
    | nil => exact Nat.le_refl 0
    | cons p ps ih =>
        rw [List.length_cons, List.map_cons, List.sum_cons]
        have hp := p.length_text_pos
        omega
  omega

/-- A token that is no longer than its cell is a word, and the cell is this word. -/
theorem eq_word_of_cell {t : Token} {s : String} (h : t.cell = some s)
    (hlength : t.text.length ≤ s.toList.length) : t = .word s.toList ∧ s.toList ≠ ['-'] := by
  cases t with
  | word w =>
      rw [cell] at h
      split at h
      · cases h
      · rename_i hnull
        cases h
        rw [String.toList_ofList]
        exact ⟨rfl, hnull⟩
  | string ps =>
      cases h
      rw [String.toList_ofList, List.length_map] at hlength
      exact absurd hlength (Nat.not_le_of_lt (length_lt_string ps))

end Token

/-- A line is no shorter than its only token. -/
theorem Layout.length_token_le {l : Layout} {t : Token} (h : l.tokens = [t]) :
    t.text.length ≤ l.text.length := by
  obtain ⟨margin, series, comment, hm⟩ := l
  cases series with
  | none => cases h
  | some s =>
      obtain rfl : s.first = t := (List.cons.inj h).1
      rw [text, Option.elim_some, Series.text]
      simp only [List.length_append]
      omega

/-! ## Lines that are one word -/

/-- A text stands without quotes exactly if it is a word and not the sign for a missing value. -/
theorem needsQuotes_eq_false {s : String} :
    needsQuotes s = false ↔
      s.toList ≠ [] ∧ s.toList ≠ ['-'] ∧ ∀ c ∈ s.toList, isWordChar c := by
  refine ⟨isWordChar_of_not_needsQuotes, ?_⟩
  rintro ⟨hempty, hnull, hchars⟩
  simp only [needsQuotes, Bool.or_eq_false_iff, beq_eq_false_iff_ne, ne_eq, List.any_eq_false,
    Bool.or_eq_true, beq_iff_eq, not_or]
  refine ⟨⟨?_, ?_⟩, fun c hc => ?_⟩
  · rintro rfl
    exact hempty rfl
  · rintro rfl
    exact hnull rfl
  · obtain ⟨hb, hq, hs⟩ := isWordChar_iff.mp (hchars c hc)
    exact ⟨⟨by rw [hb]; exact Bool.false_ne_true, hq⟩, hs⟩

/-- What is read as itself is a word. -/
theorem needsQuotes_of_readChars {s : String} (h : readChars s.toList = .ok [some s]) :
    needsQuotes s = false := by
  obtain ⟨l, ⟨htext, -⟩, hcells⟩ := exists_derives h
  -- the line has a single token, and this is no longer than the line
  obtain ⟨t, htokens, hcell⟩ := List.map_eq_singleton_iff.mp hcells
  have hproper : t.Proper := Layout.proper_of_mem_tokens (htokens ▸ List.mem_singleton_self t)
  have hlength : t.text.length ≤ s.toList.length := htext ▸ Layout.length_token_le htokens
  rw [← Token.cell_eq_decode hproper] at hcell
  obtain ⟨rfl, hnull⟩ := Token.eq_word_of_cell hcell hlength
  exact needsQuotes_eq_false.mpr
    ⟨hproper.1, hnull, fun c hc => isWordChar_iff.mpr (hproper.2 c hc)⟩

/-- A text that needs no quotes is written as it is. -/
theorem rowText_of_not_needsQuotes {s : String} (h : needsQuotes s = false) :
    rowText [some s] = s.toList := by
  simp [Token.ofCell, Token.ofText, h, Token.text]

/-- A text needs no quotes exactly if the line that consists of it is read as this one text. -/
theorem needsQuotes_iff_readLine (s : String) (line : Option Int) :
    needsQuotes s = false ↔ Document.readLine s line = .ok [some s] := by
  rw [readLine_eq_ok]
  constructor
  · intro h
    have hread := readChars_rowText (List.forall_mem_nil _) List.not_mem_nil [some s]
    rwa [rowText_of_not_needsQuotes h] at hread
  · exact needsQuotes_of_readChars

end SmlSchema.Line
