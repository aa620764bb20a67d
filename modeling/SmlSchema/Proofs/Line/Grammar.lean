import SmlSchema.Proofs.Line.Scanning

/-! # The grammar of lines

A line consists of blanks, then maybe of tokens with blanks between them and maybe after them, then
maybe of a comment, and no line feed stands in it. `Layout` is the type of the derivations in this
grammar. A line is read exactly if it has a layout, its cells are those of the tokens of the layout,
and no line has two layouts.
-/

namespace SmlSchema.Line

/-! ## What a token stands for -/

/-- The characters between quotes, with two quotes read as one and a slash between quotes as a line
break. -/
def unescape : List Char → List Char
  | [] => []
  | '"' :: '"' :: cs => '"' :: unescape cs
  | '"' :: '/' :: '"' :: cs => '\n' :: unescape cs
  | c :: cs => c :: unescape cs

/-- The cell that the text of a token stands for. -/
def decode : List Char → Cell
  | ['-'] => none
  | '"' :: cs => some (String.ofList (unescape cs.dropLast))
  | cs => some (String.ofList cs)

/-- Pieces without a lone quote are read as their characters. -/
theorem unescape_pieces {ps : List Piece} (h : .plain '"' ∉ ps) :
    unescape (ps.flatMap Piece.text) = ps.map Piece.char := by
  induction ps with
  | nil => rfl
  | cons p ps ih =>
      rw [List.mem_cons, not_or] at h
      have hps := ih h.2
      cases p with
      | plain c =>
          have hc : c ≠ '"' := fun hc => h.1 (by rw [hc])
          rw [List.flatMap_cons, Piece.text, List.singleton_append, unescape.eq_def]
          simp [hc, hps, Piece.char]
      | quote => simp [Piece.text, unescape, hps, Piece.char]
      | lineBreak => simp [Piece.text, unescape, hps, Piece.char]

/-- The pieces of a token give the same cell as its text. -/
theorem Token.cell_eq_decode {t : Token} (h : t.Proper) : t.cell = decode t.text := by
  cases t with
  | word w =>
      obtain ⟨hne, hw⟩ := h
      obtain ⟨c, cs, rfl⟩ := List.exists_cons_of_ne_nil hne
      have hc := (hw c (by simp)).2.1
      rw [Token.cell, Token.text]
      split
      · rename_i hnull
        rw [hnull]
        rfl
      · rename_i hnull
        rw [decode.eq_def]
        split
        · contradiction
        · rename_i heq
          exact absurd (List.cons.inj heq).1 hc
        · rfl
  | string ps =>
      rw [Token.cell, Token.text, decode, List.dropLast_concat, unescape_pieces h]

/-! ## Layouts -/

/-- A token behind one or more blanks. -/
@[ext] structure Spaced where
  gap : List Char
  token : Token
  gap_ne_nil : gap ≠ []
  gap_blank : ∀ c ∈ gap, Text.isBlank c
  proper : token.Proper

def Spaced.text (s : Spaced) : List Char := s.gap ++ s.token.text

/-- Tokens with blanks between them and maybe after them. -/
@[ext] structure Series where
  first : Token
  more : List Spaced
  trail : List Char
  proper : first.Proper
  trail_blank : ∀ c ∈ trail, Text.isBlank c

def Series.text (s : Series) : List Char := s.first.text ++ (s.more.flatMap Spaced.text ++ s.trail)

/-- The parts of a line: blanks, tokens if there are any, and what stands behind the number sign if
there is one. -/
@[ext] structure Layout where
  margin : List Char
  series : Option Series
  comment : Option (List Char)
  margin_blank : ∀ c ∈ margin, Text.isBlank c

def commentText : Option (List Char) → List Char
  | none => []
  | some cs => '#' :: cs

namespace Layout

def text (l : Layout) : List Char :=
  l.margin ++ (l.series.elim [] Series.text ++ commentText l.comment)

def tokens (l : Layout) : List Token :=
  l.series.elim [] fun s => s.first :: s.more.map Spaced.token

def cells (l : Layout) : List Cell := l.tokens.map fun t => decode t.text

/-- The layout is one of the characters, and these are a single line. -/
def Derives (l : Layout) (cs : List Char) : Prop := l.text = cs ∧ '\n' ∉ cs

/-- Every token of a layout is proper. -/
theorem proper_of_mem_tokens {l : Layout} {t : Token} (h : t ∈ l.tokens) : t.Proper := by
  obtain ⟨margin, series, comment, hm⟩ := l
  cases series with
  | none => cases h
  | some s =>
      rcases List.mem_cons.mp h with rfl | h
      · exact s.proper
      · obtain ⟨sp, -, rfl⟩ := List.mem_map.mp h
        exact sp.proper

end Layout

/-! ## What follows a token -/

/-- The rest of a line after a token: more tokens behind blanks, blanks, and maybe a comment. -/
def tailText (more : List Spaced) (trail : List Char) (comment : Option (List Char)) : List Char :=
  more.flatMap Spaced.text ++ (trail ++ commentText comment)

@[simp] theorem tailText_nil (trail : List Char) (comment : Option (List Char)) :
    tailText [] trail comment = trail ++ commentText comment := rfl

@[simp] theorem tailText_cons (s : Spaced) (more : List Spaced) (trail : List Char)
    (comment : Option (List Char)) :
    tailText (s :: more) trail comment =
      s.gap ++ (s.token.text ++ tailText more trail comment) := by
  simp [tailText, Spaced.text]

theorem Layout.text_series (margin : List Char) (s : Series) (comment : Option (List Char))
    (h : ∀ c ∈ margin, Text.isBlank c) :
    (Layout.mk margin (some s) comment h).text =
      margin ++ (s.first.text ++ tailText s.more s.trail comment) := by
  simp [Layout.text, Series.text, tailText]

theorem parted_commentText (comment : Option (List Char)) : Parted (commentText comment) := by
  cases comment with
  | none => exact Parted.nil
  | some cs =>
      intro c hc
      exact .inr (Option.mem_some_iff.mp hc).symm

/-- What follows a token in a layout is parted from it. -/
theorem parted_tailText (more : List Spaced) {trail : List Char}
    (h : ∀ c ∈ trail, Text.isBlank c) (comment : Option (List Char)) :
    Parted (tailText more trail comment) := by
  cases more with
  | nil =>
      rw [tailText_nil]
      exact Parted.append h fun _ => parted_commentText comment
  | cons s more =>
      rw [tailText_cons]
      exact Parted.append s.gap_blank fun hgap => absurd hgap s.gap_ne_nil

/-! ## Reading a line that has a layout -/

/-- A comment has no tokens. -/
theorem scan_commentText (start : Nat) {comment : Option (List Char)}
    (hn : '\n' ∉ commentText comment) : scan start 0 (commentText comment) = .ok [] := by
  cases comment with
  | none => rfl
  | some cs => exact scan_comment.mpr ⟨fun h => hn (List.mem_cons_of_mem _ h), rfl⟩

/-- The rest after a token is cut into its tokens, and none of them touches another one or the token
before. -/
theorem scan_tailText (start : Nat) (more : List Spaced) {trail : List Char}
    (h : ∀ c ∈ trail, Text.isBlank c) {comment : Option (List Char)}
    (hn : '\n' ∉ tailText more trail comment) :
    ∃ ps, scan start 0 (tailText more trail comment) = .ok ps ∧ touching? ps = none ∧
      (∀ p ∈ ps.head?, p.start ≠ start) ∧ ps.map (·.token) = more.map Spaced.token := by
  induction more generalizing start with
  | nil =>
      rw [tailText_nil, List.mem_append, not_or] at hn
      refine ⟨[], ?_, rfl, nofun, rfl⟩
      rw [tailText_nil, scan_blank start h hn.1, scan_commentText _ hn.2]
  | cons s more ih =>
      rw [tailText_cons, List.mem_append, List.mem_append, not_or, not_or] at hn
      obtain ⟨hgap, htoken, htail⟩ := hn
      obtain ⟨ps, hscan, htouch, hhead, htokens⟩ :=
        ih (start + s.gap.length + s.token.text.length) htail
      refine ⟨⟨start + s.gap.length, s.token⟩ :: ps, ?_, ?_, ?_, ?_⟩
      · rw [tailText_cons, scan_blank start s.gap_blank hgap,
          scan_proper _ s.proper htoken (parted_tailText more h comment), hscan]
        rfl
      · exact touching?_cons.mpr ⟨hhead, htouch⟩
      · intro p hp
        rw [List.head?_cons, Option.mem_some_iff] at hp
        rw [← hp]
        have hpos := List.length_pos_iff.mpr s.gap_ne_nil
        show start + s.gap.length ≠ start
        omega
      · rw [List.map_cons, List.map_cons, htokens]

theorem map_cell_of_map_token {ps : List Placed} {l : Layout}
    (h : ps.map (·.token) = l.tokens) : ps.map (·.token.cell) = l.cells := by
  have hmap : ps.map (·.token.cell) = (ps.map (·.token)).map Token.cell := by simp
  rw [hmap, h]
  exact List.map_congr_left fun t ht => Token.cell_eq_decode (Layout.proper_of_mem_tokens ht)

/-- A line is read as the cells of its layout. -/
theorem readChars_of_derives {l : Layout} {cs : List Char} (h : l.Derives cs) :
    readChars cs = .ok l.cells := by
  obtain ⟨rfl, hn⟩ := h
  obtain ⟨margin, series, comment, hm⟩ := l
  rw [readChars_iff]
  cases series with
  | none =>
      rw [Layout.text, List.mem_append, not_or] at hn
      refine ⟨[], ?_, rfl, rfl⟩
      rw [Layout.text, scan_blank 0 hm hn.1]
      exact scan_commentText _ hn.2
  | some s =>
      rw [Layout.text_series, List.mem_append, List.mem_append, not_or, not_or] at hn
      obtain ⟨hmargin, hfirst, htail⟩ := hn
      obtain ⟨ps, hscan, htouch, hhead, htokens⟩ :=
        scan_tailText (0 + margin.length + s.first.text.length) s.more s.trail_blank htail
      refine ⟨⟨0 + margin.length, s.first⟩ :: ps, ?_, ?_, ?_⟩
      · rw [Layout.text_series, scan_blank 0 hm hmargin,
          scan_proper _ s.proper hfirst (parted_tailText s.more s.trail_blank comment), hscan]
        rfl
      · exact touching?_cons.mpr ⟨hhead, htouch⟩
      · apply map_cell_of_map_token
        rw [List.map_cons, htokens]
        rfl

/-! ## The layout of a line that was read -/

/-- What was cut behind a token, without touching it, is the rest after a token. -/
theorem exists_tailText {start : Nat} {cs : List Char} {ps : List Placed}
    (h : scan start 0 cs = .ok ps) (ht : touching? ps = none)
    (hs : ∀ p ∈ ps.head?, p.start ≠ start) :
    ∃ more trail comment, (∀ c ∈ trail, Text.isBlank c) ∧ tailText more trail comment = cs ∧
      '\n' ∉ cs ∧ ps.map (·.token) = more.map Spaced.token := by
  induction ps generalizing start cs with
  | nil =>
      obtain ⟨bs, rest, rfl, hbs, hn, hcases⟩ := scan_cases h
      rcases hcases with ⟨rfl, -⟩ | ⟨comment, rfl, hc, -⟩ | ⟨t, tail, more, -, -, -, -, hps⟩
      · exact ⟨[], bs, none, hbs, rfl, by simpa using hn, rfl⟩
      · exact ⟨[], bs, some comment, hbs, rfl, by simp [hn, hc], rfl⟩
      · cases hps
  | cons p ps ih =>
      obtain ⟨bs, rest, rfl, hbs, hn, hcases⟩ := scan_cases h
      rcases hcases with ⟨-, hps⟩ | ⟨comment, -, -, hps⟩ | ⟨t, tail, ps, rfl, hp, hnt, hscan, hps⟩
      · cases hps
      · cases hps
      · cases hps
        obtain ⟨hnext, ht⟩ := touching?_cons.mp ht
        obtain ⟨more, trail, comment, htrail, rfl, htail, htokens⟩ := ih hscan ht hnext
        have hgap : bs ≠ [] := by
          rintro rfl
          exact hs _ rfl rfl
        refine ⟨⟨bs, t, hgap, hbs, hp⟩ :: more, trail, comment, htrail, ?_, ?_, ?_⟩
        · rw [tailText_cons]
        · simp [hn, hnt, htail]
        · rw [List.map_cons, List.map_cons, htokens]

/-- A line that can be read has a layout. -/
theorem exists_derives {cs : List Char} {cells : List Cell} (h : readChars cs = .ok cells) :
    ∃ l : Layout, l.Derives cs ∧ l.cells = cells := by
  obtain ⟨ps, hscan, ht, rfl⟩ := readChars_iff.mp h
  obtain ⟨bs, rest, rfl, hbs, hn, hcases⟩ := scan_cases hscan
  rcases hcases with ⟨rfl, rfl⟩ | ⟨comment, rfl, hc, rfl⟩ | ⟨t, tail, ps, rfl, hp, hnt, htail, rfl⟩
  · exact ⟨⟨bs, none, none, hbs⟩, ⟨rfl, by simpa using hn⟩, rfl⟩
  · exact ⟨⟨bs, none, some comment, hbs⟩, ⟨rfl, by simp [hn, hc]⟩, rfl⟩
  · obtain ⟨hnext, ht⟩ := touching?_cons.mp ht
    obtain ⟨more, trail, comment, htrail, rfl, hntail, htokens⟩ := exists_tailText htail ht hnext
    refine ⟨⟨bs, some ⟨t, more, trail, hp, htrail⟩, comment, hbs⟩, ⟨?_, ?_⟩, ?_⟩
    · rw [Layout.text_series]
    · simp [hn, hnt, hntail]
    · symm
      apply map_cell_of_map_token
      rw [List.map_cons, htokens]
      rfl

/-! ## One layout for a line -/

/-- Blanks are told from what follows them. -/
theorem blanks_inj {as bs r q : List Char} (ha : ∀ c ∈ as, Text.isBlank c)
    (hb : ∀ c ∈ bs, Text.isBlank c) (hr : ∀ c ∈ r.head?, Text.isBlank c = false)
    (hq : ∀ c ∈ q.head?, Text.isBlank c = false) (h : as ++ r = bs ++ q) : as = bs ∧ r = q := by
  have htake : ∀ {bs q : List Char}, (∀ c ∈ bs, Text.isBlank c) →
      (∀ c ∈ q.head?, Text.isBlank c = false) → (bs ++ q).takeWhile Text.isBlank = bs := by
    intro bs q hb hq
    rw [List.takeWhile_append_of_pos hb]
    cases q with
    | nil => simp
    | cons c cs => simp [hq c rfl]
  have heq : as = bs := by rw [← htake ha hr, h, htake hb hq]
  subst heq
  exact ⟨rfl, List.append_cancel_left h⟩

/-- A proper token does not begin with a blank. -/
theorem Token.Proper.solid {t : Token} (h : t.Proper) (rest : List Char) :
    ∀ c ∈ (t.text ++ rest).head?, Text.isBlank c = false := by
  obtain ⟨c, cs, hcs, hb, -⟩ := h.head
  intro d hd
  rw [hcs, List.cons_append, List.head?_cons, Option.mem_some_iff] at hd
  rwa [← hd]

theorem solid_commentText (comment : Option (List Char)) :
    ∀ c ∈ (commentText comment).head?, Text.isBlank c = false := by
  cases comment with
  | none => nofun
  | some cs =>
      intro c hc
      rw [← Option.mem_some_iff.mp hc]
      decide

section

variable {as bs : List Char} (ha : ∀ c ∈ as, Text.isBlank c) (hb : ∀ c ∈ bs, Text.isBlank c)

include ha hb

/-- Blanks and a comment are told apart in one way only. -/
theorem blanks_commentText_inj {a b : Option (List Char)}
    (h : as ++ commentText a = bs ++ commentText b) : as = bs ∧ a = b := by
  obtain ⟨has, hcomment⟩ := blanks_inj ha hb (solid_commentText a) (solid_commentText b) h
  refine ⟨has, ?_⟩
  cases a <;> cases b <;> simp_all [commentText]

/-- A token that is parted from what follows is told from it. -/
theorem blanks_token_inj {t u : Token} (ht : t.Proper) (hu : u.Proper) {r q : List Char}
    (hr : Parted r) (hq : Parted q) (hn : '\n' ∉ as ++ (t.text ++ r))
    (h : as ++ (t.text ++ r) = bs ++ (u.text ++ q)) : as = bs ∧ t = u ∧ r = q := by
  have hnt : '\n' ∉ t.text := fun hmem => hn (by simp [hmem])
  have hnu : '\n' ∉ u.text := fun hmem => hn (by simp [h, hmem])
  obtain ⟨has, hrest⟩ := blanks_inj ha hb (ht.solid r) (hu.solid q) h
  obtain ⟨c, cs, hcs, -⟩ := ht.head
  have hfirst : readToken c (cs ++ r) = some t := readToken_proper ht hnt hr (by simp [hcs])
  have hsecond : readToken c (cs ++ r) = some u :=
    readToken_proper hu hnu hq (by simp [← hrest, hcs])
  have heq : t = u := Option.some.inj (hfirst.symm.trans hsecond)
  subst heq
  exact ⟨has, rfl, List.append_cancel_left hrest⟩

/-- No token is taken for a comment or for the end of a line. -/
theorem blanks_token_ne {t : Token} (ht : t.Proper) (rest : List Char)
    (comment : Option (List Char)) : as ++ (t.text ++ rest) ≠ bs ++ commentText comment := by
  intro h
  have hrest := (blanks_inj ha hb (ht.solid rest) (solid_commentText comment) h).2
  obtain ⟨c, cs, hcs, -, hc⟩ := ht.head
  rw [hcs] at hrest
  cases comment with
  | none => cases hrest
  | some ds => exact hc (List.cons.inj hrest).1

end

/-- The rest of a layout is told apart in one way only. -/
theorem tailText_inj {more more' : List Spaced} {trail trail' : List Char}
    {comment comment' : Option (List Char)} (ht : ∀ c ∈ trail, Text.isBlank c)
    (ht' : ∀ c ∈ trail', Text.isBlank c) (hn : '\n' ∉ tailText more trail comment)
    (h : tailText more trail comment = tailText more' trail' comment') :
    more = more' ∧ trail = trail' ∧ comment = comment' := by
  induction more generalizing more' with
  | nil =>
      cases more' with
      | nil => exact ⟨rfl, blanks_commentText_inj ht ht' h⟩
      | cons s' more' =>
          rw [tailText_nil, tailText_cons] at h
          exact absurd h.symm (blanks_token_ne s'.gap_blank ht s'.proper _ comment)
  | cons s more ih =>
      rw [tailText_cons] at h hn
      cases more' with
      | nil => exact absurd h (blanks_token_ne s.gap_blank ht' s.proper _ comment')
      | cons s' more' =>
          rw [tailText_cons] at h
          obtain ⟨hgap, htoken, h⟩ := blanks_token_inj s.gap_blank s'.gap_blank s.proper s'.proper
            (parted_tailText more ht comment) (parted_tailText more' ht' comment') hn h
          obtain ⟨rfl, hrest⟩ := ih (fun hmem => hn (by simp [hmem])) h
          exact ⟨by rw [Spaced.ext hgap htoken], hrest⟩

/-- A line has no more than one layout. -/
theorem Layout.Derives.eq {l l' : Layout} {cs : List Char} (h : l.Derives cs)
    (h' : l'.Derives cs) : l = l' := by
  obtain ⟨rfl, hn⟩ := h
  have heq := h'.1.symm
  obtain ⟨margin, series, comment, hm⟩ := l
  obtain ⟨margin', series', comment', hm'⟩ := l'
  cases series with
  | none =>
      cases series' with
      | none =>
          obtain ⟨rfl, rfl⟩ := blanks_commentText_inj hm hm' heq
          rfl
      | some s' =>
          rw [Layout.text_series] at heq
          exact absurd heq.symm (blanks_token_ne hm' hm s'.proper _ comment)
  | some s =>
      rw [Layout.text_series] at heq hn
      cases series' with
      | none => exact absurd heq (blanks_token_ne hm hm' s.proper _ comment')
      | some s' =>
          rw [Layout.text_series] at heq
          obtain ⟨rfl, hfirst, htail⟩ := blanks_token_inj hm hm' s.proper s'.proper
            (parted_tailText s.more s.trail_blank comment)
            (parted_tailText s'.more s'.trail_blank comment') hn heq
          obtain ⟨hmore, htrail, rfl⟩ := tailText_inj s.trail_blank s'.trail_blank
            (fun hmem => hn (by simp [hmem])) htail
          rw [Series.ext hfirst hmore htrail]

/-! ## The lines that are read -/

/-- A line is read exactly if it has a layout, and then as the cells of its tokens. It has no more
than one, and without one it is refused. -/
theorem readLine_iff_layout (text : String) (line : Option Int) :
    (∀ cells, Document.readLine text line = .ok cells ↔
      ∃ l : Layout, l.Derives text.toList ∧ l.cells = cells) ∧
    (∀ l l' : Layout, l.Derives text.toList → l'.Derives text.toList → l = l') ∧
    ((¬ ∃ l : Layout, l.Derives text.toList) →
      ∃ flaw, Document.readLine text line = .error ⟨.badLine text flaw, line⟩) := by
  refine ⟨fun cells => ?_, fun l l' h h' => h.eq h', fun hnone => ?_⟩
  · rw [readLine_eq_ok]
    constructor
    · exact exists_derives
    · rintro ⟨l, hl, rfl⟩
      exact readChars_of_derives hl
  · cases hread : readChars text.toList with
    | ok cells =>
        obtain ⟨l, hl, -⟩ := exists_derives hread
        exact absurd ⟨l, hl⟩ hnone
    | error flaw => exact ⟨flaw, by rw [Document.readLine, read, hread]⟩

end SmlSchema.Line
