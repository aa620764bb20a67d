import SmlSchema.Proofs.Document.RoundTrip

/-! # Where the texts of a document come from

Every text of a document that was read is a cell of one of its lines, and a cell consists of
characters of its line, quotes and line feeds. So no line end but the line feed gets into a
document. Nor is an element of it taken for an end, so the document can be written anew with any
indentation and is read again as it was.
-/

namespace SmlSchema

open Line (Cell)

/-! ## Cells of a line -/

namespace Line

/-- The characters of a token stand in the line. -/
theorem text_subset_of_scan {start : Nat} {cs : List Char} {ps : List Placed}
    (h : scan start 0 cs = .ok ps) : ∀ p ∈ ps, p.token.text ⊆ cs := by
  induction ps generalizing start cs with
  | nil => nofun
  | cons p ps ih =>
      obtain ⟨bs, rest, rfl, -, -, hcases⟩ := scan_cases h
      rcases hcases with ⟨-, hps⟩ | ⟨comment, -, -, hps⟩ | ⟨t, tail, more, rfl, -, -, hmore, hps⟩
      · cases hps
      · cases hps
      · cases hps
        intro q hq
        rcases List.mem_cons.mp hq with rfl | hq
        · intro c hc
          simp [hc]
        · intro c hc
          simp [ih hmore q hq hc]

/-- The characters of a cell stand in its token, but for quotes and line feeds that are escaped. -/
theorem mem_of_mem_cell {t : Token} {s : String} (h : t.cell = some s) :
    ∀ c ∈ s.toList, c ∈ t.text ∨ c = '"' ∨ c = '\n' := by
  cases t with
  | word w =>
      rw [Token.cell] at h
      split at h
      · cases h
      · cases h
        intro c hc
        exact .inl (by simpa [Token.text] using hc)
  | string ps =>
      cases h
      intro c hc
      rw [String.toList_ofList, List.mem_map] at hc
      obtain ⟨p, hp, rfl⟩ := hc
      cases p with
      | plain c =>
          refine .inl (List.mem_cons_of_mem _ (List.mem_append_left _ ?_))
          exact List.mem_flatMap.mpr ⟨_, hp, List.mem_singleton.mpr rfl⟩
      | quote => exact .inr (.inl rfl)
      | lineBreak => exact .inr (.inr rfl)

/-- A cell has no characters but those of the line, quotes and line feeds. -/
theorem mem_of_readChars {cs : List Char} {cells : List Cell} (h : readChars cs = .ok cells)
    {s : String} (hs : some s ∈ cells) : ∀ c ∈ s.toList, c ∈ cs ∨ c = '"' ∨ c = '\n' := by
  obtain ⟨tokens, hscan, -, rfl⟩ := readChars_iff.mp h
  obtain ⟨p, hp, hcell⟩ := List.mem_map.mp hs
  intro c hc
  exact (mem_of_mem_cell hcell c hc).imp_left fun hc => text_subset_of_scan hscan p hp hc

/-- The cells of a line without line ends are plain. -/
theorem plain_of_readChars {cs : List Char} {cells : List Cell} (h : readChars cs = .ok cells)
    (hcs : ∀ c ∈ cs, Text.isLineEnd c = false) : Plain cells := by
  intro s hs
  rw [Text.hasForeignEnd, List.any_eq_false]
  intro c hc hend
  rw [Bool.and_eq_true, bne_iff_ne] at hend
  rcases mem_of_readChars h hs c hc with hc | rfl | rfl
  · rw [hcs c hc] at hend
    cases hend.1
  · exact absurd hend.1 (by decide)
  · exact hend.2 rfl

end Line

/-! ## Texts of a tree -/

theorem Node.mem_textsOfAll {s : String} {ns : List Node} :
    s ∈ Node.textsOfAll ns ↔ ∃ n ∈ ns, s ∈ n.texts := by
  induction ns with
  | nil => simp [Node.textsOfAll]
  | cons n ns ih => simp [Node.textsOfAll, ih]

theorem Node.mem_elementNamesOfAll {s : String} {ns : List Node} :
    s ∈ Node.elementNamesOfAll ns ↔ ∃ n ∈ ns, s ∈ n.elementNames := by
  induction ns with
  | nil => simp [Node.elementNamesOfAll]
  | cons n ns ih => simp [Node.elementNamesOfAll, ih]

namespace Document

namespace Derivation

variable {k : Cell}

mutual

/-- A derivation gives its node no text but the cells of its rows. -/
theorem exists_row_of_mem_texts :
    ∀ (t : Derivation k), ∀ s ∈ t.node.texts, ∃ row ∈ t.rows, some s ∈ row
  | .attribute a => by
      intro s hs
      rw [rows]
      exact ⟨_, List.mem_singleton_self _, by simpa [node, Node.texts, List.mem_filterMap] using hs⟩
  | .element name parts close _ _ => by
      intro s hs
      rw [node, Node.texts] at hs
      rw [rows]
      rcases List.mem_cons.mp hs with rfl | hs
      · exact ⟨_, List.mem_cons_self, List.mem_singleton_self _⟩
      · obtain ⟨row, hrow, hmem⟩ := exists_row_of_mem_textsOfAll parts s hs
        exact ⟨row, by simp [hrow], hmem⟩

/-- Every text of derived nodes stands in a row. -/
theorem exists_row_of_mem_textsOfAll :
    ∀ (ts : List (Derivation k)), ∀ s ∈ Node.textsOfAll (nodesOfAll ts),
      ∃ row ∈ rowsOfAll ts, some s ∈ row
  | [] => by
      rw [nodesOfAll, Node.textsOfAll]
      nofun
  | t :: ts => by
      intro s hs
      rw [nodesOfAll, Node.textsOfAll] at hs
      rw [rowsOfAll]
      rcases List.mem_append.mp hs with hs | hs
      · obtain ⟨row, hrow, hmem⟩ := exists_row_of_mem_texts t s hs
        exact ⟨row, List.mem_append_left _ hrow, hmem⟩
      · obtain ⟨row, hrow, hmem⟩ := exists_row_of_mem_textsOfAll ts s hs
        exact ⟨row, List.mem_append_right _ hrow, hmem⟩

end

mutual

/-- No element of a derivation is taken for an end. -/
theorem apart_of_mem :
    ∀ t : Derivation k, ∀ name ∈ t.node.elementNames, sameCell (some name) k = false
  | .attribute a => by
      rw [node, Node.elementNames]
      nofun
  | .element name parts close apart closes => by
      rw [node, Node.elementNames, List.forall_mem_cons]
      constructor
      · rw [← Bool.not_eq_true, sameCell_iff]
        exact apart
      · exact apart_of_mem_all parts

/-- No derived element has the name of the end keyword. -/
theorem apart_of_mem_all :
    ∀ ts : List (Derivation k), ∀ name ∈ Node.elementNamesOfAll (nodesOfAll ts),
      sameCell (some name) k = false
  | [] => by
      rw [nodesOfAll, Node.elementNamesOfAll]
      nofun
  | t :: ts => by
      rw [nodesOfAll, Node.elementNamesOfAll, List.forall_mem_append]
      exact ⟨apart_of_mem t, apart_of_mem_all ts⟩

end

end Derivation

/-- Every text of the tree of some rows, and its end keyword, is a cell of them. -/
theorem Derives.mem_texts {rows : List (List Cell)} {d : Document} (h : Derives rows d)
    {s : String} (hs : s ∈ d.texts) : ∃ row ∈ rows, some s ∈ row := by
  obtain ⟨hlast, t, rfl, hnode⟩ := h
  rw [texts, List.mem_append, Option.mem_toList] at hs
  rcases hs with hs | hs
  · rw [← hnode] at hs
    exact t.exists_row_of_mem_texts s hs
  · refine ⟨_, List.mem_of_getLast? hlast, ?_⟩
    rw [hs]
    exact List.mem_singleton_self _

/-- A document that was read holds no line end but line feeds. -/
theorem linesKept_of_parse {text : String} {d : Document} (h : parse text = .ok d) :
    d.LinesKept := by
  obtain ⟨rows, hhold, hrows⟩ := exists_hold_of_parse h
  intro s hs
  obtain ⟨row, hrow, hmem⟩ := hrows.mem_texts hs
  obtain ⟨l, hl, hread⟩ := hhold.exists_line hrow
  exact Line.plain_of_readChars hread (Text.isLineEnd_of_mem_lineChars hl) s hmem

/-- A document that was read has no element that is taken for an end. -/
theorem endsApart_of_parse {text : String} {d : Document} (h : parse text = .ok d) :
    d.EndsApart := by
  obtain ⟨rows, -, -, t, -, hnode⟩ := exists_hold_of_parse h
  rw [EndsApart, ← hnode]
  exact t.apart_of_mem

/-! ## Writing a document anew -/

/-- A document that was read and is written with an indentation of blanks is read again as the same
document. Written again, its text does not change any more. -/
theorem parse_render_parse {text : String} {d : Document} {indentation : String}
    (h : parse text = .ok d) (hi : ∀ c ∈ indentation.toList, Text.isBlank c) :
    parse (d.render indentation) = .ok d ∧
      (parse (d.render indentation)).map (·.render indentation) = .ok (d.render indentation) := by
  have hparse := d.parse_render hi (endsApart_of_parse h) (linesKept_of_parse h)
  refine ⟨hparse, ?_⟩
  rw [hparse]
  rfl

/-- The mixed document, printed with other indentation. -/
theorem parse_render_parse_mixed :
    parse mixedText = .ok mixedDocument ∧ (∀ c ∈ "\t ".toList, Text.isBlank c) ∧
      parse (mixedDocument.render "\t ") = .ok mixedDocument := by
  have hparse := (parse_eq_ok_of_hold hold_mixedText).mpr derives_mixedDocument
  have hi : ∀ c ∈ "\t ".toList, Text.isBlank c := List.all_eq_true.mp (by decide)
  exact ⟨hparse, hi, (parse_render_parse hparse hi).1⟩

end Document

end SmlSchema
