import SmlSchema.Line.Token
import SmlSchema.Proofs.Line.Scanning

/-! # Reading a line that was written

A written line gives back its cells, also behind blanks. A line that breaks off inside a quoted
token is refused, whatever stands in the token: the reader may close the token early, at a quote
that was written twice, but then the other one opens a token that is never closed.
-/

namespace SmlSchema.Line

/-! ## Characters between quotes -/

/-- What is written between the quotes for a text. -/
def quotedText (s : List Char) : List Char := s.flatMap fun c => (Piece.ofChar c).text

@[simp] theorem quotedText_nil : quotedText [] = [] := rfl

@[simp] theorem quotedText_cons (c : Char) (s : List Char) :
    quotedText (c :: s) = (Piece.ofChar c).text ++ quotedText s := by
  simp [quotedText]

@[simp] theorem flatMap_text_ofChar (s : List Char) :
    (s.map Piece.ofChar).flatMap Piece.text = quotedText s := by
  simp [quotedText, List.flatMap_map]

/-- A character is written as itself, as two quotes, or as a slash between quotes. -/
theorem Piece.ofChar_cases (c : Char) :
    (c = '"' ∧ Piece.ofChar c = .quote) ∨ (c = '\n' ∧ Piece.ofChar c = .lineBreak) ∨
      (c ≠ '"' ∧ c ≠ '\n' ∧ Piece.ofChar c = .plain c) := by
  unfold Piece.ofChar
  by_cases hq : c = '"'
  · exact .inl ⟨hq, by simp [hq]⟩
  · by_cases hn : c = '\n'
    · exact .inr (.inl ⟨hn, by simp [hn]⟩)
    · exact .inr (.inr ⟨hq, hn, by simp [hq, hn]⟩)

/-- The rest of a line after a written token: nothing, or a blank first. -/
def Detached (rest : List Char) : Prop := ∀ c ∈ rest.head?, Text.isBlank c

theorem Detached.nil : Detached [] := by simp [Detached]

theorem Detached.space (cs : List Char) : Detached (' ' :: cs) := by
  intro c hc
  rw [List.head?_cons, Option.mem_some_iff] at hc
  subst hc
  decide

theorem Detached.parted {rest : List Char} (h : Detached rest) : Parted rest :=
  fun c hc => .inl (h c hc)

/-- Without a closing quote there is no token, or it ends at one of the quotes that stand for a
character: a shorter text without a closing quote remains. -/
theorem readPieces_unclosed (s : List Char) :
    readPieces (quotedText s) = none ∨
      ∃ ps t, t.length < s.length ∧
        (readPieces (quotedText s) = some (ps, '"' :: quotedText t) ∨
          readPieces (quotedText s) = some (ps, '/' :: '"' :: quotedText t)) := by
  induction s with
  | nil => exact .inl rfl
  | cons c s ih =>
      rw [quotedText_cons]
      rcases Piece.ofChar_cases c with ⟨rfl, hp⟩ | ⟨rfl, hp⟩ | ⟨hq, hn, hp⟩
      · rcases ih with h | ⟨ps, t, ht, h | h⟩
        · exact .inr ⟨[], s, by simp, .inl (by simp [hp, Piece.text, readPieces, h])⟩
        · exact .inr ⟨.quote :: ps, t, by simp; omega,
            .inl (by simp [hp, Piece.text, readPieces, h])⟩
        · exact .inr ⟨.quote :: ps, t, by simp; omega,
            .inr (by simp [hp, Piece.text, readPieces, h])⟩
      · rcases ih with h | ⟨ps, t, ht, h | h⟩
        · exact .inr ⟨[], s, by simp, .inr (by simp [hp, Piece.text, readPieces, h])⟩
        · exact .inr ⟨.lineBreak :: ps, t, by simp; omega,
            .inl (by simp [hp, Piece.text, readPieces, h])⟩
        · exact .inr ⟨.lineBreak :: ps, t, by simp; omega,
            .inr (by simp [hp, Piece.text, readPieces, h])⟩
      · rcases ih with h | ⟨ps, t, ht, h | h⟩
        · exact .inl (by simp [hp, Piece.text, readPieces_plain hq hn, h])
        · exact .inr ⟨.plain c :: ps, t, by simp; omega,
            .inl (by simp [hp, Piece.text, readPieces_plain hq hn, h])⟩
        · exact .inr ⟨.plain c :: ps, t, by simp; omega,
            .inr (by simp [hp, Piece.text, readPieces_plain hq hn, h])⟩

/-! ## Written cells -/

/-- A text that needs no quotes is a word. -/
theorem isWordChar_of_not_needsQuotes {s : String} (h : needsQuotes s = false) :
    s.toList ≠ [] ∧ s.toList ≠ ['-'] ∧ ∀ c ∈ s.toList, isWordChar c := by
  simp only [needsQuotes, Bool.or_eq_false_iff, beq_eq_false_iff_ne, ne_eq, List.any_eq_false,
    Bool.or_eq_true, beq_iff_eq, not_or] at h
  obtain ⟨⟨hempty, hnull⟩, hchars⟩ := h
  refine ⟨fun h => hempty (String.toList_injective h), fun h => hnull (String.toList_injective h),
    fun c hc => ?_⟩
  obtain ⟨⟨hb, hq⟩, hs⟩ := hchars c hc
  simp [isWordChar, hb, hq, hs]

/-- A cell is written as a word, or as the pieces of its characters. -/
theorem Token.ofCell_cases (cell : Cell) :
    (∃ w, Token.ofCell cell = .word w ∧ w ≠ [] ∧ ∀ c ∈ w, isWordChar c) ∨
      ∃ s : List Char, Token.ofCell cell = .string (s.map Piece.ofChar) := by
  cases cell with
  | none => exact .inl ⟨['-'], rfl, by simp, List.forall_mem_singleton.mpr (by decide)⟩
  | some s =>
      by_cases hs : needsQuotes s = true
      · exact .inr ⟨s.toList, by simp [Token.ofCell, Token.ofText, hs]⟩
      · rw [Bool.not_eq_true] at hs
        obtain ⟨hne, -, hchars⟩ := isWordChar_of_not_needsQuotes hs
        exact .inl ⟨s.toList, by simp [Token.ofCell, Token.ofText, hs], hne, hchars⟩

theorem Piece.plain_of_mem_ofChar {s : List Char} {c : Char} (h : .plain c ∈ s.map Piece.ofChar) :
    c ≠ '"' ∧ c ≠ '\n' := by
  obtain ⟨d, -, hd⟩ := List.mem_map.mp h
  rcases Piece.ofChar_cases d with ⟨-, hp⟩ | ⟨-, hp⟩ | ⟨hq, hn, hp⟩
  · rw [hp] at hd
    cases hd
  · rw [hp] at hd
    cases hd
  · rw [hp] at hd
    cases hd
    exact ⟨hq, hn⟩

/-- The token of a cell is proper. -/
theorem Token.proper_ofCell (cell : Cell) : (Token.ofCell cell).Proper := by
  rcases Token.ofCell_cases cell with ⟨w, hw, hne, hchars⟩ | ⟨s, hs⟩
  · rw [hw]
    exact ⟨hne, fun c hc => isWordChar_iff.mp (hchars c hc)⟩
  · rw [hs]
    exact fun hq => (Piece.plain_of_mem_ofChar hq).1 rfl

/-- The token of a cell stands on one line. -/
theorem Token.newline_not_mem_ofCell (cell : Cell) : '\n' ∉ (Token.ofCell cell).text := by
  apply (Token.proper_ofCell cell).newline_not_mem
  intro ps hps hn
  rcases Token.ofCell_cases cell with ⟨w, hw, -⟩ | ⟨s, hs⟩
  · rw [hw] at hps
    cases hps
  · rw [hs] at hps
    cases hps
    exact (Piece.plain_of_mem_ofChar hn).2 rfl

/-- A written token is read as the same token, if a blank or nothing follows. -/
theorem scan_ofCell (start : Nat) (cell : Cell) {rest : List Char} (h : Detached rest) :
    scan start 0 ((Token.ofCell cell).text ++ rest) =
      (scan (start + (Token.ofCell cell).text.length) 0 rest).map
        (⟨start, Token.ofCell cell⟩ :: ·) :=
  scan_proper start (Token.proper_ofCell cell) (Token.newline_not_mem_ofCell cell) h.parted

/-- The token of a cell is read as the cell. -/
@[simp] theorem cell_ofCell (cell : Cell) : (Token.ofCell cell).cell = cell := by
  cases cell with
  | none => rfl
  | some s =>
      by_cases hs : needsQuotes s = true
      · simp [Token.ofCell, Token.ofText, hs, Token.cell, Function.comp_def]
      · rw [Bool.not_eq_true] at hs
        obtain ⟨-, hnull, -⟩ := isWordChar_of_not_needsQuotes hs
        simp [Token.ofCell, Token.ofText, hs, Token.cell, hnull]

/-! ## Written rows -/

/-- The characters of a row of cells. -/
def rowText (cells : List Cell) : List Char :=
  [' '].intercalate (cells.map fun c => (Token.ofCell c).text)

/-- The characters of cells that others follow. -/
def leadText (cells : List Cell) : List Char :=
  cells.flatMap fun c => (Token.ofCell c).text ++ [' ']

@[simp] theorem rowText_singleton (cell : Cell) : rowText [cell] = (Token.ofCell cell).text := by
  simp [rowText]

theorem rowText_cons_cons (a b : Cell) (cells : List Cell) :
    rowText (a :: b :: cells) = (Token.ofCell a).text ++ ' ' :: rowText (b :: cells) := by
  simp [rowText, List.intercalate]

/-- A row is the row of its first cells, with a blank behind them, and the row of the others. -/
theorem rowText_append (cells : List Cell) (a : Cell) (more : List Cell) :
    rowText (cells ++ a :: more) = leadText cells ++ rowText (a :: more) := by
  induction cells with
  | nil => rfl
  | cons c cells ih =>
      have hne : ∃ d ds, cells ++ a :: more = d :: ds := by cases cells <;> simp
      obtain ⟨d, ds, hd⟩ := hne
      rw [List.cons_append, hd, rowText_cons_cons, ← hd, ih]
      simp [leadText]

theorem toList_write (cells : List Cell) : (write cells).toList = rowText cells := by
  simp [write, rowText, writeCell, String.toList_intercalate, Function.comp_def]

/-- The tokens of a row of cells at their places. -/
def placed (start : Nat) : List Cell → List Placed
  | [] => []
  | c :: cs =>
    ⟨start, Token.ofCell c⟩ :: placed (start + (Token.ofCell c).text.length + 1) cs

/-- A row is scanned into the tokens of its cells. -/
theorem scan_rowText (start : Nat) (cells : List Cell) :
    scan start 0 (rowText cells) = .ok (placed start cells) := by
  induction cells generalizing start with
  | nil => rfl
  | cons a cells ih =>
      cases cells with
      | nil =>
          have h := scan_ofCell start a Detached.nil
          rw [List.append_nil] at h
          rw [rowText_singleton, h]
          rfl
      | cons b cells =>
          rw [rowText_cons_cons, scan_ofCell start a (Detached.space _), scan_space, ih]
          rfl

/-- Written tokens never touch. -/
theorem touching?_placed (start : Nat) (cells : List Cell) :
    touching? (placed start cells) = none := by
  induction cells generalizing start with
  | nil => rfl
  | cons a cells ih =>
      cases cells with
      | nil => rfl
      | cons b cells =>
          have hgap : (⟨start, Token.ofCell a⟩ : Placed).stop ≠
              start + (Token.ofCell a).text.length + 1 := by
            simp only [Placed.stop]
            omega
          have htail := ih (start + (Token.ofCell a).text.length + 1)
          simp only [placed] at htail ⊢
          rw [touching?, if_neg hgap, htail]

theorem map_cell_placed (start : Nat) (cells : List Cell) :
    (placed start cells).map (·.token.cell) = cells := by
  induction cells generalizing start with
  | nil => rfl
  | cons c cells ih => simp [placed, ih]

theorem readChars_eq_error {cs : List Char} {flaw : Flaw} (h : scan 0 0 cs = .error flaw) :
    readChars cs = .error flaw := by
  simp only [readChars, h, bind, Except.bind]

/-- A row of cells is read back behind any blanks. -/
theorem readChars_rowText {margin : List Char} (hb : ∀ c ∈ margin, Text.isBlank c)
    (hn : '\n' ∉ margin) (cells : List Cell) : readChars (margin ++ rowText cells) = .ok cells := by
  have hscan := scan_blank 0 hb hn (rowText cells)
  rw [scan_rowText] at hscan
  exact readChars_iff.mpr ⟨_, hscan, touching?_placed _ _, map_cell_placed _ _⟩

/-- Every row of cells is read back from the line that is written for it. -/
theorem readLine_write (cells : List Cell) (line : Option Int) :
    Document.readLine (write cells) line = .ok cells := by
  have hblank : ∀ c ∈ ([] : List Char), Text.isBlank c := nofun
  rw [readLine_eq_ok, toList_write]
  exact readChars_rowText hblank nofun cells

/-- A blank line has no cells. -/
theorem readChars_blank {cs : List Char} (hb : ∀ c ∈ cs, Text.isBlank c) (hn : '\n' ∉ cs) :
    readChars cs = .ok [] := by
  have h := readChars_rowText hb hn []
  rwa [show rowText [] = [] from rfl, List.append_nil] at h

/-! ## Lines that break off -/

/-- A quoted token without its end cannot be cut into tokens. -/
theorem scan_unclosed (start : Nat) (s : List Char) :
    ∃ flaw, scan start 0 ('"' :: quotedText s) = .error flaw := by
  induction hlen : s.length using Nat.strongRecOn generalizing start s with
  | ind n ih =>
      rcases readPieces_unclosed s with h | ⟨ps, t, ht, h | h⟩
      · have hb : Text.isBlank '"' = false := by decide
        exact ⟨.unexpected (start + 1), by simp [scan, readToken, h, hb]⟩
      · have htok : readToken '"' (quotedText s) = some (.string ps) := by simp [readToken, h]
        have hcs : '"' :: quotedText s = (Token.string ps).text ++ '"' :: quotedText t := by
          rw [readPieces_eq_some h]
          simp [Token.text]
        obtain ⟨flaw, hflaw⟩ :=
          ih t.length (hlen ▸ ht) (start + (Token.string ps).text.length) t rfl
        refine ⟨flaw, ?_⟩
        rw [hcs, scan_token start (by decide) (by decide) htok hcs, hflaw]
        rfl
      · have htok : readToken '"' (quotedText s) = some (.string ps) := by simp [readToken, h]
        have hcs : '"' :: quotedText s = (Token.string ps).text ++ '/' :: '"' :: quotedText t := by
          rw [readPieces_eq_some h]
          simp [Token.text]
        have hslash : readToken '/' ('"' :: quotedText t) = some (.word ['/']) := by
          simp [readToken, isWordChar]
        obtain ⟨flaw, hflaw⟩ :=
          ih t.length (hlen ▸ ht) (start + (Token.string ps).text.length + 1) t rfl
        refine ⟨flaw, ?_⟩
        have hslash_text :
            '/' :: '"' :: quotedText t = (Token.word ['/']).text ++ '"' :: quotedText t := rfl
        have hword := scan_token (start + (Token.string ps).text.length) (by decide) (by decide)
          hslash hslash_text
        rw [← hslash_text] at hword
        rw [show (Token.word ['/']).text.length = 1 from rfl] at hword
        rw [hcs, scan_token start (by decide) (by decide) htok hcs, hword, hflaw]
        rfl

/-- Cells before a part that is refused do not help. -/
theorem scan_leadText {rest : List Char} (h : ∀ start, ∃ flaw, scan start 0 rest = .error flaw)
    (start : Nat) (cells : List Cell) :
    ∃ flaw, scan start 0 (leadText cells ++ rest) = .error flaw := by
  induction cells generalizing start with
  | nil => exact h start
  | cons c cells ih =>
      obtain ⟨flaw, hflaw⟩ := ih (start + (Token.ofCell c).text.length + 1)
      refine ⟨flaw, ?_⟩
      have hsplit : leadText (c :: cells) ++ rest =
          (Token.ofCell c).text ++ ' ' :: (leadText cells ++ rest) := by simp [leadText]
      rw [hsplit, scan_ofCell start c (Detached.space _), scan_space, hflaw]
      rfl

/-- A line that breaks off inside a quoted token is refused. -/
theorem readChars_unclosed {margin : List Char} (hb : ∀ c ∈ margin, Text.isBlank c)
    (hn : '\n' ∉ margin) (cells : List Cell) (s : List Char) :
    ∃ flaw, readChars (margin ++ (leadText cells ++ '"' :: quotedText s)) = .error flaw := by
  obtain ⟨flaw, h⟩ :=
    scan_leadText (fun start => scan_unclosed start s) (0 + margin.length) cells
  refine ⟨flaw, readChars_eq_error ?_⟩
  rw [scan_blank 0 hb hn, h]

end SmlSchema.Line
