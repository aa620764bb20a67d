import Mathlib.Data.List.TakeWhile
import SmlSchema.Document.Reader
import SmlSchema.Proofs.Result

/-! # Cutting a line into tokens

What the scanner does where a token may start, in both directions. `scan_cases` says what a line
that can be cut looks like from there: blanks, and then its end, a comment or a token. `scan_proper`
says which token is found, if a blank, a comment or nothing follows it. A quoted token ends at the
last quote that leaves whole pieces before it, and any earlier one is followed by a quote or a
slash; so no token that is followed as said can be taken for a longer or a shorter one.
-/

namespace SmlSchema.Line

/-! ## Tokens -/

/-- A word has characters, and none of them is a blank, a quote or a number sign. The plain
characters of a string are no quotes. -/
def Token.Proper : Token → Prop
  | .word cs => cs ≠ [] ∧ ∀ c ∈ cs, Text.isBlank c = false ∧ c ≠ '"' ∧ c ≠ '#'
  | .string ps => .plain '"' ∉ ps

/-- A word is made of anything but blanks, quotes and the sign of comments. -/
theorem isWordChar_iff {c : Char} :
    isWordChar c ↔ Text.isBlank c = false ∧ c ≠ '"' ∧ c ≠ '#' := by
  simp [isWordChar, and_assoc]

theorem ne_newline_of_not_blank {c : Char} (h : Text.isBlank c = false) : c ≠ '\n' := by
  rintro rfl
  revert h
  decide

/-- A token starts with a character that is passed over neither as a blank nor as a comment. -/
theorem Token.Proper.head {t : Token} (h : t.Proper) :
    ∃ c cs, t.text = c :: cs ∧ Text.isBlank c = false ∧ c ≠ '#' := by
  cases t with
  | word w =>
      obtain ⟨hne, hw⟩ := h
      obtain ⟨c, cs, rfl⟩ := List.exists_cons_of_ne_nil hne
      obtain ⟨hb, -, hc⟩ := hw c (by simp)
      exact ⟨c, cs, rfl, hb, hc⟩
  | string ps => exact ⟨'"', _, rfl, by decide, by decide⟩

/-- The rest of a line after a token that touches no other one: nothing, or a blank or a comment
first. -/
def Parted (rest : List Char) : Prop := ∀ c ∈ rest.head?, Text.isBlank c ∨ c = '#'

theorem Parted.nil : Parted [] := nofun

theorem Parted.head_ne {c d : Char} {cs : List Char} (h : Parted (c :: cs))
    (hb : Text.isBlank d = false) (hd : d ≠ '#') : c ≠ d := by
  rintro rfl
  rcases h c rfl with hc | hc
  · rw [hb] at hc
    cases hc
  · exact hd hc

/-- Blanks part a token from whatever follows them. -/
theorem Parted.append {bs rest : List Char} (hb : ∀ c ∈ bs, Text.isBlank c)
    (h : bs = [] → Parted rest) : Parted (bs ++ rest) := by
  cases bs with
  | nil => exact h rfl
  | cons b bs =>
      intro c hc
      rw [List.cons_append, List.head?_cons, Option.mem_some_iff] at hc
      exact .inl (hb c (by simp [hc]))

/-! ## Quoted tokens -/

/-- A plain character is a piece of its own. -/
theorem readPieces_plain {c : Char} (hq : c ≠ '"') (hn : c ≠ '\n') (cs : List Char) :
    readPieces (c :: cs) = (readPieces cs).map fun r => (.plain c :: r.1, r.2) := by
  rw [readPieces.eq_def]
  simp [hq, hn]

/-- A quoted token goes on with a whole piece, or its closing quote comes first. -/
theorem readPieces_cases {cs rest : List Char} {ps : List Piece}
    (h : readPieces cs = some (ps, rest)) :
    (ps = [] ∧ cs = '"' :: rest) ∨
      ∃ p qs tail, ps = p :: qs ∧ cs = p.text ++ tail ∧ p ≠ .plain '"' ∧ p ≠ .plain '\n' ∧
        readPieces tail = some (qs, rest) := by
  revert h
  fun_cases readPieces cs with
  | case1 => nofun
  | case2 cs qs tail hr =>
      intro h
      obtain ⟨rfl, rfl⟩ := Prod.mk.inj (Option.some.inj h)
      exact .inr ⟨.quote, qs, cs, rfl, rfl, nofun, nofun, hr⟩
  | case3 cs hr =>
      intro h
      obtain ⟨rfl, rfl⟩ := Prod.mk.inj (Option.some.inj h)
      exact .inl ⟨rfl, rfl⟩
  | case4 cs qs tail hr =>
      intro h
      obtain ⟨rfl, rfl⟩ := Prod.mk.inj (Option.some.inj h)
      exact .inr ⟨.lineBreak, qs, cs, rfl, rfl, nofun, nofun, hr⟩
  | case5 cs hr =>
      intro h
      obtain ⟨rfl, rfl⟩ := Prod.mk.inj (Option.some.inj h)
      exact .inl ⟨rfl, rfl⟩
  | case6 cs =>
      intro h
      obtain ⟨rfl, rfl⟩ := Prod.mk.inj (Option.some.inj h)
      exact .inl ⟨rfl, rfl⟩
  | case7 => nofun
  | case8 c cs _ _ hq hn =>
      intro h
      obtain ⟨⟨qs, tail⟩, hr, heq⟩ := Option.map_eq_some_iff.mp h
      obtain ⟨rfl, rfl⟩ := Prod.mk.inj heq
      refine .inr ⟨.plain c, qs, cs, rfl, rfl, ?_, ?_, hr⟩
      · exact fun hp => hq (Piece.plain.inj hp)
      · exact fun hp => hn (Piece.plain.inj hp)

/-- The pieces that were read and the closing quote are what stood before the rest. -/
theorem readPieces_eq_some {cs rest : List Char} {ps : List Piece}
    (h : readPieces cs = some (ps, rest)) : cs = ps.flatMap Piece.text ++ '"' :: rest := by
  induction ps generalizing cs with
  | nil =>
      rcases readPieces_cases h with ⟨-, rfl⟩ | ⟨p, qs, tail, hps, -⟩
      · rfl
      · cases hps
  | cons p ps ih =>
      rcases readPieces_cases h with ⟨hps, -⟩ | ⟨p, qs, tail, hps, rfl, -, -, hr⟩
      · cases hps
      · cases hps
        rw [ih hr, List.flatMap_cons, List.append_assoc]

/-- No quote and no line feed is read as a plain character. -/
theorem plain_not_mem_of_readPieces {cs rest : List Char} {ps : List Piece}
    (h : readPieces cs = some (ps, rest)) : .plain '"' ∉ ps ∧ .plain '\n' ∉ ps := by
  induction ps generalizing cs with
  | nil => exact ⟨nofun, nofun⟩
  | cons p ps ih =>
      rcases readPieces_cases h with ⟨hps, -⟩ | ⟨p, qs, tail, hps, rfl, hq, hn, hr⟩
      · cases hps
      · cases hps
        simp [hq.symm, hn.symm, ih hr]

/-- A quote that is parted from what follows ends the text. -/
theorem readPieces_close {rest : List Char} (h : Parted rest) :
    readPieces ('"' :: rest) = some ([], rest) := by
  cases rest with
  | nil => rfl
  | cons c cs =>
      have hq : c ≠ '"' := h.head_ne (by decide) (by decide)
      have hs : c ≠ '/' := h.head_ne (by decide) (by decide)
      rw [readPieces.eq_def]
      simp [hq, hs]

/-- Pieces are read back up to a quote that is parted from what follows. -/
theorem readPieces_pieces {ps : List Piece} (hq : .plain '"' ∉ ps) (hn : .plain '\n' ∉ ps)
    {rest : List Char} (h : Parted rest) :
    readPieces (ps.flatMap Piece.text ++ '"' :: rest) = some (ps, rest) := by
  induction ps with
  | nil => exact readPieces_close h
  | cons p ps ih =>
      rw [List.mem_cons, not_or] at hq hn
      have hps := ih hq.2 hn.2
      cases p with
      | plain c =>
          have hcq : c ≠ '"' := fun hc => hq.1 (by rw [hc])
          have hcn : c ≠ '\n' := fun hc => hn.1 (by rw [hc])
          simp [Piece.text, readPieces_plain hcq hcn, hps]
      | quote => simp [Piece.text, readPieces, hps]
      | lineBreak => simp [Piece.text, readPieces, hps]

/-! ## The token at a place -/

theorem newline_not_mem_pieces {ps : List Piece} :
    '\n' ∉ ps.flatMap Piece.text ↔ .plain '\n' ∉ ps := by
  rw [List.mem_flatMap, not_iff_not]
  constructor
  · rintro ⟨p, hp, hn⟩
    cases p with
    | plain c =>
        rw [Piece.text, List.mem_singleton] at hn
        rwa [hn]
    | quote => simp [Piece.text] at hn
    | lineBreak => simp [Piece.text] at hn
  · intro hp
    exact ⟨_, hp, List.mem_singleton_self _⟩

/-- A line feed in a token is a plain character of a string. -/
theorem Token.Proper.newline_not_mem {t : Token} (h : t.Proper)
    (hn : ∀ ps, t = .string ps → .plain '\n' ∉ ps) : '\n' ∉ t.text := by
  cases t with
  | word w =>
      intro hmem
      exact ne_newline_of_not_blank (h.2 '\n' hmem).1 rfl
  | string ps => simpa [Token.text] using newline_not_mem_pieces.mpr (hn ps rfl)

/-- A word ends where it is parted from what follows. -/
theorem takeWhile_isWordChar {w rest : List Char} (hw : ∀ c ∈ w, isWordChar c)
    (h : Parted rest) : (w ++ rest).takeWhile isWordChar = w := by
  have hrest : rest.takeWhile isWordChar = [] := by
    cases rest with
    | nil => rfl
    | cons c cs => rcases h c rfl with hc | hc <;> simp [isWordChar, hc]
  rw [List.takeWhile_append_of_pos hw, hrest, List.append_nil]

/-- A token that is found stands at its place. -/
theorem readToken_eq_some {c : Char} {cs : List Char} {t : Token} (hb : Text.isBlank c = false)
    (hc : c ≠ '#') (h : readToken c cs = some t) :
    t.Proper ∧ '\n' ∉ t.text ∧ ∃ rest, c :: cs = t.text ++ rest := by
  unfold readToken at h
  split at h
  · rename_i hquote
    obtain ⟨⟨ps, rest⟩, hps, rfl⟩ := Option.map_eq_some_iff.mp h
    obtain ⟨hq, hn⟩ := plain_not_mem_of_readPieces hps
    have hproper : (Token.string ps).Proper := hq
    refine ⟨hproper, hproper.newline_not_mem ?_, rest, ?_⟩
    · rintro _ ⟨⟩
      exact hn
    · rw [hquote, readPieces_eq_some hps]
      simp [Token.text]
  · rename_i hquote
    cases h
    have hproper : (Token.word (c :: cs.takeWhile isWordChar)).Proper := by
      refine ⟨List.cons_ne_nil _ _, fun d hd => ?_⟩
      rcases List.mem_cons.mp hd with rfl | hd
      · exact ⟨hb, hquote, hc⟩
      · exact isWordChar_iff.mp (List.mem_takeWhile_imp hd)
    refine ⟨hproper, hproper.newline_not_mem nofun, cs.dropWhile isWordChar, ?_⟩
    rw [Token.text, List.cons_append, List.takeWhile_append_dropWhile]

/-- A token is found where it stands, if it is parted from what follows. -/
theorem readToken_proper {t : Token} (ht : t.Proper) (hn : '\n' ∉ t.text) {rest : List Char}
    (h : Parted rest) {c : Char} {cs : List Char} (hcs : t.text ++ rest = c :: cs) :
    readToken c cs = some t := by
  cases t with
  | word w =>
      obtain ⟨hne, hw⟩ := ht
      obtain ⟨d, ds, rfl⟩ := List.exists_cons_of_ne_nil hne
      rw [Token.text, List.cons_append] at hcs
      obtain ⟨rfl, rfl⟩ := List.cons.inj hcs
      have hds : ∀ e ∈ ds, isWordChar e := fun e he => isWordChar_iff.mpr (hw e (by simp [he]))
      rw [readToken, if_neg (hw d (by simp)).2.1, takeWhile_isWordChar hds h]
  | string ps =>
      rw [Token.text, List.cons_append, List.append_assoc, List.singleton_append] at hcs
      obtain ⟨rfl, rfl⟩ := List.cons.inj hcs
      have hps : .plain '\n' ∉ ps :=
        newline_not_mem_pieces.mp fun hmem => hn (by simp [Token.text, hmem])
      rw [readToken, if_pos rfl, readPieces_pieces ht hps h]
      rfl

/-! ## Steps of the scanner -/

/-- Characters of a token that has been read are skipped. -/
theorem scan_skip (start : Nat) (cs rest : List Char) :
    scan start cs.length (cs ++ rest) = scan (start + cs.length) 0 rest := by
  induction cs generalizing start with
  | nil => rfl
  | cons c cs ih =>
      rw [List.cons_append, List.length_cons, scan, ih]
      congr 1
      omega

/-- Blanks before a token are passed over. -/
theorem scan_blank (start : Nat) {cs : List Char} (hb : ∀ c ∈ cs, Text.isBlank c)
    (hn : '\n' ∉ cs) (rest : List Char) :
    scan start 0 (cs ++ rest) = scan (start + cs.length) 0 rest := by
  induction cs generalizing start with
  | nil => rfl
  | cons c cs ih =>
      have hc : c ≠ '\n' := fun h => hn (by simp [h])
      rw [List.cons_append, scan, if_neg hc, if_pos (hb c (by simp)),
        ih (start + 1) (fun d hd => hb d (by simp [hd])) (fun h => hn (by simp [h]))]
      simp only [List.length_cons]
      congr 1
      omega

theorem scan_space (start : Nat) (rest : List Char) :
    scan start 0 (' ' :: rest) = scan (start + 1) 0 rest := by
  have hspace : ∀ c ∈ [' '], Text.isBlank c := List.forall_mem_singleton.mpr (by decide)
  exact scan_blank start hspace (by decide) rest

/-- A comment runs to the end of the line. -/
theorem scan_comment {start : Nat} {cs : List Char} {ps : List Placed} :
    scan start 0 ('#' :: cs) = .ok ps ↔ '\n' ∉ cs ∧ ps = [] := by
  have hb : Text.isBlank '#' = false := by decide
  have hlen : (cs.takeWhile (· != '\n')).length = cs.length ↔ '\n' ∉ cs := by
    constructor
    · intro h hn
      have hall := List.takeWhile_eq_self_iff.mp ((List.takeWhile_prefix _).eq_of_length h)
      simpa using hall '\n' hn
    · intro hn
      rw [List.takeWhile_eq_self_iff.mpr]
      intro c hc
      exact bne_iff_ne.mpr fun h => hn (h ▸ hc)
  rw [← hlen]
  by_cases h : (cs.takeWhile (· != '\n')).length = cs.length
  · simp [scan, hb, h, eq_comm]
  · simp [scan, hb, h]

/-- The first token is followed by the tokens of the rest. -/
theorem scan_token (start : Nat) {c : Char} {cs rest : List Char} {t : Token}
    (hb : Text.isBlank c = false) (hc : c ≠ '#') (ht : readToken c cs = some t)
    (hcs : c :: cs = t.text ++ rest) :
    scan start 0 (t.text ++ rest) =
      (scan (start + t.text.length) 0 rest).map (⟨start, t⟩ :: ·) := by
  obtain ⟨d, ds, hd, -⟩ := (readToken_eq_some hb hc ht).1.head
  have htail : cs = ds ++ rest := by
    rw [hd] at hcs
    exact (List.cons.inj hcs).2
  rw [← hcs, scan, if_neg (ne_newline_of_not_blank hb), if_neg (by simp [hb]), if_neg hc, ht]
  have hlen : t.text.length - 1 = ds.length := by simp [hd]
  have hsum : start + 1 + ds.length = start + t.text.length := by
    rw [hd, List.length_cons]
    omega
  simp only [hlen]
  rw [htail, scan_skip, hsum]
  cases scan (start + t.text.length) 0 rest <;> rfl

/-- A token that is parted from what follows is the next one of the line. -/
theorem scan_proper (start : Nat) {t : Token} (ht : t.Proper) (hn : '\n' ∉ t.text)
    {rest : List Char} (h : Parted rest) :
    scan start 0 (t.text ++ rest) =
      (scan (start + t.text.length) 0 rest).map (⟨start, t⟩ :: ·) := by
  obtain ⟨c, cs, hcs, hb, hc⟩ := ht.head
  have hfound : readToken c (cs ++ rest) = some t :=
    readToken_proper ht hn h (by rw [hcs, List.cons_append])
  exact scan_token start hb hc hfound (by rw [hcs, List.cons_append])

/-- What stands behind the blanks at a place of a line that can be cut: its end, a comment or a
token. -/
theorem scan_cases {start : Nat} {cs : List Char} {ps : List Placed}
    (h : scan start 0 cs = .ok ps) :
    ∃ bs rest, cs = bs ++ rest ∧ (∀ c ∈ bs, Text.isBlank c) ∧ '\n' ∉ bs ∧
      ((rest = [] ∧ ps = []) ∨
        (∃ comment, rest = '#' :: comment ∧ '\n' ∉ comment ∧ ps = []) ∨
        ∃ t tail more, rest = t.text ++ tail ∧ t.Proper ∧ '\n' ∉ t.text ∧
          scan (start + bs.length + t.text.length) 0 tail = .ok more ∧
          ps = ⟨start + bs.length, t⟩ :: more) := by
  induction cs generalizing start with
  | nil =>
      cases h
      exact ⟨[], [], rfl, nofun, nofun, .inl ⟨rfl, rfl⟩⟩
  | cons c cs ih =>
      by_cases hb : Text.isBlank c = true
      · have hn : c ≠ '\n' := by
          rintro rfl
          cases h
        rw [scan, if_neg hn, if_pos hb] at h
        obtain ⟨bs, rest, rfl, hbs, hnbs, hcases⟩ := ih h
        refine ⟨c :: bs, rest, rfl, ?_, ?_, ?_⟩
        · exact List.forall_mem_cons.mpr ⟨hb, hbs⟩
        · rw [List.mem_cons, not_or]
          exact ⟨hn.symm, hnbs⟩
        · rw [show start + (c :: bs).length = start + 1 + bs.length by
            rw [List.length_cons]
            omega]
          exact hcases
      · rw [Bool.not_eq_true] at hb
        refine ⟨[], c :: cs, rfl, nofun, nofun, .inr ?_⟩
        by_cases hc : c = '#'
        · subst hc
          exact .inl ⟨cs, rfl, scan_comment.mp h⟩
        · have hscan := h
          rw [scan, if_neg (ne_newline_of_not_blank hb), if_neg (by simp [hb]), if_neg hc] at h
          split at h
          · cases h
          · rename_i t ht
            obtain ⟨hproper, hn, tail, hcs⟩ := readToken_eq_some hb hc ht
            rw [hcs, scan_token start hb hc ht hcs, map_eq_ok] at hscan
            obtain ⟨more, hmore, hps⟩ := hscan
            exact .inr ⟨t, tail, more, hcs, hproper, hn, hmore, hps.symm⟩

/-! ## Tokens that touch -/

/-- Tokens do not touch if each begins after the one before it has ended. -/
theorem touching?_cons {p : Placed} {ps : List Placed} :
    touching? (p :: ps) = none ↔ (∀ q ∈ ps.head?, q.start ≠ p.stop) ∧ touching? ps = none := by
  cases ps with
  | nil => simp [touching?]
  | cons q ps =>
      rw [touching?, List.head?_cons]
      by_cases h : p.stop = q.start
      · simp [h]
      · simp [h, Ne.symm h]

/-- A line is read as the cells of its tokens if these do not touch. -/
theorem readChars_iff {cs : List Char} {cells : List Cell} :
    readChars cs = .ok cells ↔ ∃ tokens, scan 0 0 cs = .ok tokens ∧ touching? tokens = none ∧
      tokens.map (·.token.cell) = cells := by
  rw [readChars, bind_eq_ok]
  refine exists_congr fun tokens => and_congr_right fun _ => ?_
  cases touching? tokens with
  | none => simp
  | some p => simp

theorem readLine_eq_ok {text : String} {line : Option Int} {cells : List Cell} :
    Document.readLine text line = .ok cells ↔ readChars text.toList = .ok cells := by
  rw [Document.readLine, read]
  cases readChars text.toList with
  | ok cells => simp
  | error flaw => simp

end SmlSchema.Line
