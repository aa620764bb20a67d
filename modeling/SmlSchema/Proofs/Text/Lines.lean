import SmlSchema.Text.Character
import SmlSchema.Text.Lines

/-! # Cutting joined lines

A text that was joined from parts by line feeds is cut at the line ends inside the parts and at the
joints. A part may hold line ends of its own: blanks in front of it, or line ends that its writer
did not know of.
-/

namespace SmlSchema.Text

/-- Line ends are blank. -/
theorem isBlank_of_isLineEnd {c : Char} (h : isLineEnd c) : isBlank c := by
  simp only [isLineEnd, List.contains_eq_mem, List.mem_cons, List.not_mem_nil, or_false,
    decide_eq_true_eq] at h
  rcases h with rfl | rfl | rfl | rfl | rfl | rfl | rfl | rfl | rfl | rfl <;> decide

/-! ## One character -/

/-- What the first character does, unless it ends a line together with the second one. -/
theorem lineChars_cons {c : Char} {cs : List Char} (hcs : c = '\r' → cs.head? ≠ some '\n') :
    lineChars (c :: cs) =
      if isLineEnd c then [] :: lineChars cs else consLine c (lineChars cs) := by
  rw [lineChars]
  rintro es hc rfl
  exact hcs hc rfl

/-- A character that is no line end belongs to the first line. -/
theorem lineChars_cons_of_not_end {c : Char} (h : isLineEnd c = false) (cs : List Char) :
    lineChars (c :: cs) = consLine c (lineChars cs) := by
  have hc : c ≠ '\r' := by
    rintro rfl
    exact absurd h (by decide)
  rw [lineChars_cons fun hr => absurd hr hc, if_neg (by simp [h])]

/-- A carriage return ends a line together with a line feed after it, so none may follow. -/
theorem lineChars_cons_of_end {c : Char} (h : isLineEnd c) {cs : List Char}
    (hcs : c = '\r' → cs.head? ≠ some '\n') : lineChars (c :: cs) = [] :: lineChars cs := by
  rw [lineChars_cons hcs, if_pos h]

theorem consLine_append (c : Char) {a : List (List Char)} (h : a ≠ []) (b : List (List Char)) :
    consLine c (a ++ b) = consLine c a ++ b := by
  cases a with
  | nil => exact absurd rfl h
  | cons l ls => rfl

theorem consLine_ne_nil (c : Char) (ls : List (List Char)) : consLine c ls ≠ [] := by
  cases ls <;> exact List.cons_ne_nil _ _

/-- A carriage return and a line feed end one line together. -/
theorem lineChars_crlf (cs : List Char) : lineChars ('\r' :: '\n' :: cs) = [] :: lineChars cs := rfl

/-- Induction along a text: it goes on with the two characters that end a line together, with one
character that ends a line, or with one that does not. -/
@[elab_as_elim]
theorem lineChars_induction {motive : List Char → Prop} (nil : motive [])
    (crlf : ∀ cs, motive cs → motive ('\r' :: '\n' :: cs))
    (ending : ∀ c cs, isLineEnd c → (c = '\r' → cs.head? ≠ some '\n') → motive cs →
      motive (c :: cs))
    (inside : ∀ c cs, isLineEnd c = false → motive cs → motive (c :: cs)) (cs : List Char) :
    motive cs := by
  fun_induction lineChars cs with
  | case1 => exact nil
  | case2 cs ih => exact crlf cs ih
  | case3 c cs hcrlf hend ih =>
      refine ending c cs hend (fun hc hhead => ?_) ih
      obtain ⟨ds, rfl⟩ := List.head?_eq_some_iff.mp hhead
      exact hcrlf ds hc rfl
  | case4 c cs _ hend ih => exact inside c cs (Bool.not_eq_true _ ▸ hend) ih

theorem lineChars_ne_nil {cs : List Char} (h : cs ≠ []) : lineChars cs ≠ [] := by
  induction cs using lineChars_induction with
  | nil => exact absurd rfl h
  | crlf cs => simp [lineChars_crlf]
  | ending c cs hend hcr => simp [lineChars_cons_of_end hend hcr]
  | inside c cs hend =>
      rw [lineChars_cons_of_not_end hend]
      exact consLine_ne_nil c _

/-! ## Joints -/

/-- A line feed ends a line. -/
theorem lineChars_newline (cs : List Char) : lineChars ('\n' :: cs) = [] :: lineChars cs :=
  lineChars_cons_of_end (by decide) fun h => absurd h (by decide)

/-- A text is cut at every line feed that was put into it. -/
theorem lineChars_append_newline (xs rest : List Char) :
    lineChars (xs ++ '\n' :: rest) = lineChars (xs ++ ['\n']) ++ lineChars rest := by
  induction xs using lineChars_induction with
  | nil => exact lineChars_newline rest
  | crlf cs ih =>
      simp only [List.cons_append, lineChars_crlf]
      rw [ih]
  | ending c cs hend hcr ih =>
      by_cases hlast : c = '\r' ∧ cs = []
      · obtain ⟨rfl, rfl⟩ := hlast
        exact lineChars_crlf rest
      · have hhead : ∀ tail, c = '\r' → (cs ++ '\n' :: tail).head? ≠ some '\n' := by
          intro tail hc
          cases cs with
          | nil => exact absurd ⟨hc, rfl⟩ hlast
          | cons d ds => exact hcr hc
        rw [List.cons_append, List.cons_append, lineChars_cons_of_end hend (hhead rest),
          lineChars_cons_of_end hend (hhead []), ih, List.cons_append]
  | inside c cs hend ih =>
      rw [List.cons_append, List.cons_append, lineChars_cons_of_not_end hend,
        lineChars_cons_of_not_end hend, ih, consLine_append c (lineChars_ne_nil (by simp))]

/-- A line feed at the end of a line adds no line. -/
theorem lineChars_concat_newline (xs : List Char) {c : Char} (h : isLineEnd c = false) :
    lineChars (xs ++ [c] ++ ['\n']) = lineChars (xs ++ [c]) := by
  induction xs using lineChars_induction with
  | nil =>
      rw [List.nil_append, List.singleton_append, lineChars_cons_of_not_end h,
        lineChars_cons_of_not_end h, lineChars_newline]
      rfl
  | crlf cs ih => rw [List.cons_append, List.cons_append, List.cons_append, List.cons_append,
      lineChars_crlf, lineChars_crlf, ih]
  | ending d cs hend hcr ih =>
      have hhead : ∀ tail, d = '\r' → (cs ++ [c] ++ tail).head? ≠ some '\n' := by
        intro tail hd
        cases cs with
        | nil =>
            intro hc
            rw [List.nil_append, List.singleton_append, List.head?_cons, Option.some.injEq] at hc
            exact absurd (hc ▸ h) (by decide)
        | cons e es => exact hcr hd
      have hhead' := hhead []
      rw [List.append_nil] at hhead'
      rw [List.cons_append, List.cons_append, lineChars_cons_of_end hend (hhead ['\n']),
        lineChars_cons_of_end hend hhead', ih]
  | inside d cs hend ih =>
      rw [List.cons_append, List.cons_append, lineChars_cons_of_not_end hend,
        lineChars_cons_of_not_end hend, ih]

/-- Lines that were joined are cut one by one, if the last one does not end in a line end. -/
theorem lineChars_intercalate (ls : List (List Char)) (xs : List Char) {c : Char}
    (h : isLineEnd c = false) :
    lineChars (['\n'].intercalate (ls ++ [xs ++ [c]])) =
      (ls ++ [xs ++ [c]]).flatMap fun l => lineChars (l ++ ['\n']) := by
  induction ls with
  | nil =>
      have hlast := lineChars_concat_newline xs h
      simpa [List.append_assoc] using hlast.symm
  | cons l ls ih =>
      have hjoin : ['\n'].intercalate (l :: (ls ++ [xs ++ [c]])) =
          l ++ '\n' :: ['\n'].intercalate (ls ++ [xs ++ [c]]) := by
        obtain ⟨d, ds, hd⟩ : ∃ d ds, ls ++ [xs ++ [c]] = d :: ds := by cases ls <;> simp
        simp [hd, List.intercalate]
      rw [List.cons_append, hjoin, lineChars_append_newline, ih, List.flatMap_cons]

/-! ## The lines of a part -/

/-- Blanks in front of a text may be cut into blank lines; the text stays together with the last of
them. -/
theorem lineChars_margin {margin : List Char} (hm : ∀ c ∈ margin, isBlank c) {b : Char}
    (hb : isBlank b = false) :
    ∃ blanks rest, (∀ l ∈ blanks, ∀ c ∈ l, isBlank c ∧ isLineEnd c = false) ∧
      (∀ c ∈ rest, isBlank c ∧ isLineEnd c = false) ∧
      ∀ cs, lineChars (margin ++ b :: cs) = blanks ++ lineChars (rest ++ b :: cs) := by
  induction margin using lineChars_induction with
  | nil => exact ⟨[], [], by simp, by simp, fun cs => rfl⟩
  | crlf ms ih =>
      obtain ⟨blanks, rest, hblanks, hrest, h⟩ := ih fun c hc => hm c (by simp [hc])
      refine ⟨[] :: blanks, rest, by simpa using hblanks, hrest, fun cs => ?_⟩
      rw [List.cons_append, List.cons_append, lineChars_crlf, h, List.cons_append]
  | ending m ms hend hcr ih =>
      obtain ⟨blanks, rest, hblanks, hrest, h⟩ := ih fun c hc => hm c (by simp [hc])
      refine ⟨[] :: blanks, rest, by simpa using hblanks, hrest, fun cs => ?_⟩
      have hhead : m = '\r' → (ms ++ b :: cs).head? ≠ some '\n' := by
        intro hmr
        cases ms with
        | nil =>
            intro hc
            rw [List.nil_append, List.head?_cons, Option.some.injEq] at hc
            exact absurd (hc ▸ hb) (by decide)
        | cons d ds => exact hcr hmr
      rw [List.cons_append, lineChars_cons_of_end hend hhead, h, List.cons_append]
  | inside m ms hend ih =>
      obtain ⟨blanks, rest, hblanks, hrest, h⟩ := ih fun c hc => hm c (by simp [hc])
      have hmb : isBlank m ∧ isLineEnd m = false := ⟨hm m (by simp), hend⟩
      cases blanks with
      | nil =>
          refine ⟨[], m :: rest, by simp, by simpa [hmb] using hrest, fun cs => ?_⟩
          rw [List.cons_append, lineChars_cons_of_not_end hend, h, List.nil_append, List.nil_append,
            List.cons_append, lineChars_cons_of_not_end hend]
      | cons l ls =>
          refine ⟨(m :: l) :: ls, rest, ?_, hrest, fun cs => ?_⟩
          · intro k hk
            rcases List.mem_cons.mp hk with rfl | hk
            · simpa [hmb] using hblanks l (by simp)
            · exact hblanks k (by simp [hk])
          · rw [List.cons_append, lineChars_cons_of_not_end hend, h]
            rfl

/-- Characters without a line end are one line. -/
theorem lineChars_of_not_end {xs : List Char} (hxs : ∀ c ∈ xs, isLineEnd c = false) :
    lineChars (xs ++ ['\n']) = [xs] := by
  induction xs with
  | nil => rfl
  | cons x xs ih =>
      rw [List.cons_append, lineChars_cons_of_not_end (hxs x (by simp)),
        ih fun c hc => hxs c (by simp [hc])]
      rfl

/-- The first line of a text ends at the first line end. -/
theorem lineChars_of_end {xs : List Char} (hxs : ∀ c ∈ xs, isLineEnd c = false) {c : Char}
    (hc : isLineEnd c) (rest : List Char) : ∃ ls, lineChars (xs ++ c :: rest) = xs :: ls := by
  induction xs with
  | nil =>
      by_cases hcr : c = '\r' ∧ rest.head? = some '\n'
      · obtain ⟨rfl, hrest⟩ := hcr
        obtain ⟨ds, rfl⟩ := List.head?_eq_some_iff.mp hrest
        exact ⟨lineChars ds, lineChars_crlf ds⟩
      · exact ⟨lineChars rest, lineChars_cons_of_end hc fun h h' => hcr ⟨h, h'⟩⟩
  | cons x xs ih =>
      obtain ⟨ls, h⟩ := ih fun d hd => hxs d (by simp [hd])
      refine ⟨ls, ?_⟩
      rw [List.cons_append, lineChars_cons_of_not_end (hxs x (by simp)), h]
      rfl

/-- No line holds a line end. -/
theorem isLineEnd_of_mem_lineChars {cs l : List Char} (hl : l ∈ lineChars cs) :
    ∀ c ∈ l, isLineEnd c = false := by
  induction cs using lineChars_induction generalizing l with
  | nil => cases hl
  | crlf cs ih =>
      rw [lineChars_crlf] at hl
      rcases List.mem_cons.mp hl with rfl | hl
      · simp
      · exact ih hl
  | ending c cs hend hcr ih =>
      rw [lineChars_cons_of_end hend hcr] at hl
      rcases List.mem_cons.mp hl with rfl | hl
      · simp
      · exact ih hl
  | inside c cs hend ih =>
      rw [lineChars_cons_of_not_end hend] at hl
      generalize hls : lineChars cs = ls at hl ih
      cases ls with
      | nil =>
          obtain rfl := List.mem_singleton.mp hl
          simpa using hend
      | cons m ms =>
          rcases List.mem_cons.mp hl with rfl | hl
          · intro d hd
            rcases List.mem_cons.mp hd with rfl | hd
            · exact hend
            · exact ih List.mem_cons_self d hd
          · exact ih (List.mem_cons_of_mem m hl)

end SmlSchema.Text
