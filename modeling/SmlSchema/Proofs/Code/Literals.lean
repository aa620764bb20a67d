import Mathlib.Tactic.SplitIfs
import SmlSchema.Code.Printer
import SmlSchema.Proofs.Result

/-! # What a written text stands for

Between double quotes the target language reads code points: a character stands for itself, and each
escape stands for one code point. A text is written in units of 16 bits. Up to 16 bits a unit is a
code point; a character above them is written as two units, which are read as two code points.
-/

namespace SmlSchema

namespace Text

/-- The digits but the last, then the last. -/
theorem hexDigits_succ (width n : Nat) (hwidth : 0 < width) :
    hexDigits (width + 1) n = hexDigits width (n / 16) ++ [Nat.digitChar (n % 16)] := by
  rcases Nat.lt_or_ge n 16 with hn | hn
  · obtain ⟨w, rfl⟩ := Nat.exists_eq_add_of_lt hwidth
    have hzero : Nat.toDigits 16 0 = ['0'] := rfl
    rw [hexDigits, hexDigits, Nat.toDigits_of_lt_base hn, Nat.div_eq_of_lt hn, hzero,
      Nat.mod_eq_of_lt hn]
    simp [List.replicate_succ']
  · rw [hexDigits, hexDigits, Nat.toDigits_of_base_le (by decide) hn]
    simp

theorem hexDigits_one {n : Nat} (hn : n < 16) : hexDigits 1 n = [Nat.digitChar n] := by
  rw [hexDigits, Nat.toDigits_of_lt_base hn]
  rfl

/-- A number of 16 bits is written with four digits. -/
theorem hexDigits_four {n : Nat} (hn : n < 0x10000) :
    hexDigits 4 n = [Nat.digitChar (n / 16 / 16 / 16), Nat.digitChar (n / 16 / 16 % 16),
      Nat.digitChar (n / 16 % 16), Nat.digitChar (n % 16)] := by
  rw [hexDigits_succ 3 n (by decide), hexDigits_succ 2 _ (by decide),
    hexDigits_succ 1 _ (by decide), hexDigits_one (by omega)]
  rfl

end Text

namespace Code.Quoted

/-! ## Reading -/

/-- The value of a hexadecimal digit in either letter case. -/
def hexValue? (c : Char) : Option Nat :=
  if '0' ≤ c ∧ c ≤ '9' then some (c.toNat - '0'.toNat)
  else if 'a' ≤ c ∧ c ≤ 'f' then some (c.toNat - 'a'.toNat + 10)
  else if 'A' ≤ c ∧ c ≤ 'F' then some (c.toNat - 'A'.toNat + 10)
  else none

/-- The code point that four digits write. -/
def hexPoint? (a b c d : Char) : Option Nat := do
  return (((← hexValue? a) * 16 + (← hexValue? b)) * 16 + (← hexValue? c)) * 16 + (← hexValue? d)

/-- The code point that a character after a backslash stands for. -/
def escapePoint? : Char → Option Nat
  | '\\' => some 0x5C
  | '"' => some 0x22
  | 'b' => some 0x08
  | 't' => some 0x09
  | 'n' => some 0x0A
  | 'f' => some 0x0C
  | 'r' => some 0x0D
  | _ => none

/-- A character stands for itself, but a text does not go over the end of a line. -/
def plainPoint? (c : Char) : Option Nat :=
  if c = '\\' ∨ c = '\n' ∨ c = '\r' then none else some c.toNat

/-- Put a code point before those that follow. -/
def prepend? (n : Option Nat) (r : Option (List Nat × List Char)) :
    Option (List Nat × List Char) := do
  return ((← n) :: (← r).1, (← r).2)

@[simp] theorem prepend?_some (n : Nat) (r : Option (List Nat × List Char)) :
    prepend? (some n) r = r.map fun r => (n :: r.1, r.2) := by
  cases r <;> rfl

/-- The code points up to the closing quote, and what follows it. -/
def readBody? : List Char → Option (List Nat × List Char)
  | [] => none
  | '"' :: rest => some ([], rest)
  | '\\' :: 'u' :: a :: b :: c :: d :: rest => prepend? (hexPoint? a b c d) (readBody? rest)
  | '\\' :: c :: rest => prepend? (escapePoint? c) (readBody? rest)
  | c :: rest => prepend? (plainPoint? c) (readBody? rest)

/-- A text in quotes at the start, and what follows it. -/
def readQuoted? : List Char → Option (List Nat × List Char)
  | '"' :: rest => readBody? rest
  | _ => none

theorem hexValue?_digitChar : ∀ n < 16, hexValue? (Nat.digitChar n) = some n := by decide

/-- The four digits of a number are read as the number. -/
theorem hexPoint?_digitChars {n : Nat} (hn : n < 0x10000) :
    hexPoint? (Nat.digitChar (n / 16 / 16 / 16)) (Nat.digitChar (n / 16 / 16 % 16))
      (Nat.digitChar (n / 16 % 16)) (Nat.digitChar (n % 16)) = some n := by
  have hmod : ∀ m, m % 16 < 16 := fun m => Nat.mod_lt m (by decide)
  simp only [hexPoint?, hexValue?_digitChar _ (hmod _),
    hexValue?_digitChar (n / 16 / 16 / 16) (by omega), Option.pure_def, Option.bind_eq_bind,
    Option.bind_some, Option.some.injEq]
  omega

/-- An escape of one unit is read as the unit. -/
theorem readBody?_unitEscape {n : Nat} (hn : n < 0x10000) (rest : List Char) :
    readBody? (Literal.unitEscape n ++ rest) = prepend? (some n) (readBody? rest) := by
  rw [Literal.unitEscape, Text.hexDigits_four hn]
  simp only [List.cons_append, List.nil_append, readBody?, hexPoint?_digitChars hn]

theorem toNat_lt (c : Char) : c.toNat < 0x110000 := by
  rcases c.valid with hlow | ⟨-, hhigh⟩
  · exact Nat.lt_trans hlow (by decide)
  · exact hhigh

/-- The 16 bit units of a character. -/
def units (c : Char) : List Nat :=
  if c.toNat < 0x10000 then [c.toNat]
  else [0xD800 + (c.toNat - 0x10000) / 0x400, 0xDC00 + (c.toNat - 0x10000) % 0x400]

/-- A short escape is read as the character that it stands for. -/
theorem readBody?_short {c d : Char} (hd : escapePoint? d = some c.toNat) (hc : c.toNat < 0x10000)
    (rest : List Char) :
    readBody? ('\\' :: d :: rest) = (readBody? rest).map fun r => (units c ++ r.1, r.2) := by
  have hu : d ≠ 'u' := by
    rintro rfl
    cases hd
  rw [readBody?, hd, prepend?_some, units, if_pos hc]
  · rfl
  · rintro _ _ _ _ _ rfl
    exact absurd rfl hu

/-- A character that stands for itself is read as its own code point. -/
theorem readBody?_plain {c : Char} (h : plainPoint? c = some c.toNat) (hquote : c ≠ '"')
    (rest : List Char) :
    readBody? (c :: rest) = (readBody? rest).map fun r => (c.toNat :: r.1, r.2) := by
  have hslash : c ≠ '\\' := by
    rintro rfl
    cases h
  rw [readBody?, h, prepend?_some]
  · exact hquote
  · rintro _ _ _ _ _ rfl
    exact absurd rfl hslash
  · rintro _ _ rfl
    exact absurd rfl hslash

/-- What is written for a character is read as its units. -/
theorem readBody?_escapeChar (c : Char) (rest : List Char) :
    readBody? (Literal.escapeChar c ++ rest) =
      (readBody? rest).map fun r => (units c ++ r.1, r.2) := by
  dsimp only [Literal.escapeChar]
  split_ifs with hquote hslash hline hreturn htab hback hfeed hplain hsmall
  iterate 7
    · subst c
      exact readBody?_short rfl (by decide) rest
  · have hpoint : plainPoint? c = some c.toNat := by simp [plainPoint?, hslash, hline, hreturn]
    have hsmall : c.toNat < 0x10000 := by
      simp only [Bool.and_eq_true, decide_eq_true_eq] at hplain
      omega
    rw [units, if_pos hsmall]
    exact readBody?_plain hpoint hquote rest
  · rw [units, if_pos hsmall, readBody?_unitEscape hsmall, prepend?_some]
    rfl
  · have hmax := toNat_lt c
    rw [units, if_neg hsmall, List.append_assoc, readBody?_unitEscape (by omega),
      readBody?_unitEscape (by omega), prepend?_some, prepend?_some, Option.map_map]
    rfl

/-- A text in quotes is read as the units of its characters, whatever follows it. -/
theorem readQuoted?_stringText (s : String) (rest : List Char) :
    readQuoted? ((Literal.stringText s).toList ++ rest) = some (s.toList.flatMap units, rest) := by
  have hbody : ∀ cs : List Char, readBody? (cs.flatMap Literal.escapeChar ++ '"' :: rest) =
      some (cs.flatMap units, rest) := by
    intro cs
    induction cs with
    | nil => simp [readBody?]
    | cons c cs ih =>
        rw [List.flatMap_cons, List.append_assoc, readBody?_escapeChar, ih]
        rfl
  rw [Literal.stringText, String.toList_ofList, List.cons_append, List.append_assoc, readQuoted?]
  exact hbody s.toList

/-! ## Lists -/

theorem prepend?_eq_some {n : Option Nat} {r : Option (List Nat × List Char)}
    {x : List Nat × List Char} (h : prepend? n r = some x) : ∃ ns, r = some (ns, x.2) := by
  obtain ⟨m, -, h⟩ := Option.bind_eq_some_iff.mp h
  obtain ⟨y, hy, h⟩ := Option.bind_eq_some_iff.mp h
  rw [hy] at h ⊢
  cases h
  exact ⟨y.1, rfl⟩

/-- Reading a quoted text leaves less than there was. -/
theorem length_of_readBody? {cs rest : List Char} {ns : List Nat}
    (h : readBody? cs = some (ns, rest)) : rest.length < cs.length := by
  fun_induction readBody? cs generalizing ns with
  | case1 => cases h
  | case2 tail =>
      cases h
      exact Nat.lt_succ_self _
  | case3 a b c d tail ih =>
      obtain ⟨ms, hms⟩ := prepend?_eq_some h
      have hlength := ih hms
      simp only [List.length_cons]
      omega
  | case4 c tail _ ih =>
      obtain ⟨ms, hms⟩ := prepend?_eq_some h
      have hlength := ih hms
      simp only [List.length_cons]
      omega
  | case5 c tail _ _ _ ih =>
      obtain ⟨ms, hms⟩ := prepend?_eq_some h
      exact Nat.lt_succ_of_lt (ih hms)

theorem length_of_readQuoted? {cs rest : List Char} {ns : List Nat}
    (h : readQuoted? cs = some (ns, rest)) : rest.length < cs.length := by
  unfold readQuoted? at h
  split at h
  · exact Nat.lt_succ_of_lt (length_of_readBody? h)
  · cases h

/-- Texts in quotes with commas between them, up to a closing bracket. -/
def readItems? (cs : List Char) : Option (List (List Nat)) :=
  match _h : readQuoted? cs with
  | some (ns, [']']) => some [ns]
  | some (ns, ',' :: rest) => (readItems? (rest.dropWhile (· = ' '))).map (ns :: ·)
  | _ => none
termination_by cs.length
decreasing_by
  have hlength := length_of_readQuoted? _h
  have hdrop := (List.dropWhile_sublist (· = ' ') (l := rest)).length_le
  simp only [List.length_cons] at hlength
  omega

/-- The code points of a text that stands alone. -/
def readText? (text : String) : Option (List Nat) :=
  match readQuoted? text.toList with
  | some (ns, []) => some ns
  | _ => none

/-- The code points of the texts in a list. -/
def readTexts? (text : String) : Option (List (List Nat)) :=
  match text.toList with
  | ['[', ']'] => some []
  | '[' :: rest => readItems? rest
  | _ => none

/-- The code points of a string. -/
def points (s : String) : List Nat := s.toList.map Char.toNat

/-- No character of the string is above 16 bits. -/
def IsNarrow (s : String) : Prop := ∀ c ∈ s.toList, c.toNat < 0x10000

instance (s : String) : Decidable (IsNarrow s) := inferInstanceAs (Decidable (∀ c ∈ _, _))

/-- Units and code points agree exactly if every character has one unit. -/
theorem units_eq_points_iff {s : String} : s.toList.flatMap units = points s ↔ IsNarrow s := by
  unfold points IsNarrow
  induction s.toList with
  | nil => simp
  | cons c cs ih =>
      rw [List.flatMap_cons, List.map_cons, List.forall_mem_cons, ← ih, units]
      split
      · rename_i hsmall
        simp [hsmall]
      · rename_i hlarge
        -- The first unit is below 16 bits and the character is not.
        refine iff_of_false (fun h => ?_) fun h => hlarge h.1
        have hhead := (List.cons.inj h).1
        have hmax : c.toNat < 0x110000 := toNat_lt c
        omega

/-- A quoted text is read as the units of the text. -/
theorem readText?_stringText (s : String) :
    readText? (Literal.stringText s) = some (s.toList.flatMap units) := by
  have h := readQuoted?_stringText s []
  rw [List.append_nil] at h
  rw [readText?, h]

/-- The last item of a list. -/
theorem readItems?_last {cs : List Char} {ns : List Nat} (h : readQuoted? cs = some (ns, [']'])) :
    readItems? cs = some [ns] := by
  rw [readItems?]
  split <;> simp_all

/-- An item of a list before the others. -/
theorem readItems?_next {cs rest : List Char} {ns : List Nat}
    (h : readQuoted? cs = some (ns, ',' :: rest)) :
    readItems? cs = (readItems? (rest.dropWhile (· = ' '))).map (ns :: ·) := by
  rw [readItems?]
  split <;> simp_all

/-- A written list without its brackets starts with a quote. -/
theorem exists_intercalate_stringText (s : String) (ss : List String) :
    ∃ cs, (", ".intercalate ((s :: ss).map Literal.stringText)).toList = '"' :: cs := by
  cases ss with
  | nil => exact ⟨_, String.toList_ofList⟩
  | cons t ss =>
      rw [List.map_cons, List.map_cons, String.intercalate_cons_cons, String.append_assoc,
        String.toList_append, Literal.stringText, String.toList_ofList]
      exact ⟨_, rfl⟩

/-- Quoted texts with commas between them are read one by one. -/
theorem readItems?_intercalate (s : String) (ss : List String) :
    readItems? ((", ".intercalate ((s :: ss).map Literal.stringText)).toList ++ [']']) =
      some ((s :: ss).map fun x => x.toList.flatMap units) := by
  induction ss generalizing s with
  | nil => exact readItems?_last (readQuoted?_stringText s [']'])
  | cons t ss ih =>
      have hnext := ih t
      obtain ⟨cs, hcs⟩ := exists_intercalate_stringText t ss
      have hwritten : (", ".intercalate ((s :: t :: ss).map Literal.stringText)).toList ++ [']'] =
          (Literal.stringText s).toList ++ ',' :: ' ' :: '"' :: (cs ++ [']']) := by
        rw [List.map_cons] at hcs
        rw [List.map_cons, List.map_cons, String.intercalate_cons_cons, String.toList_append,
          String.toList_append, hcs, List.append_assoc, List.append_assoc]
        rfl
      rw [hcs] at hnext
      rw [hwritten, readItems?_next (readQuoted?_stringText s _)]
      change (readItems? ('"' :: cs ++ [']'])).map _ = _
      rw [hnext]
      rfl

theorem codeAll_strings (ss : List String) :
    Literal.codeAll (ss.map .string) = .ok (ss.map Literal.stringText) := by
  induction ss with
  | nil => rfl
  | cons s ss ih => simp [Literal.codeAll, Literal.code, ih]

/-- A written list of texts is read as the units of each text. -/
theorem readTexts?_bracketed (ss : List String) :
    readTexts? (Text.bracketed (ss.map Literal.stringText)) =
      some (ss.map fun x => x.toList.flatMap units) := by
  cases ss with
  | nil => rfl
  | cons s ss =>
      have hitems := readItems?_intercalate s ss
      obtain ⟨cs, hcs⟩ := exists_intercalate_stringText s ss
      have hwritten : (Text.bracketed ((s :: ss).map Literal.stringText)).toList =
          '[' :: '"' :: (cs ++ [']']) := by
        rw [Text.bracketed, String.toList_append, String.toList_append, hcs]
        rfl
      rw [hcs] at hitems
      rw [readTexts?, hwritten]
      exact hitems

/-- A literal is read as the units of its text. They are the code points of the text exactly if no
character is above 16 bits, and the same holds for every text of a list. -/
theorem read_code_iff (s : String) (ss : List String) :
    (∃ text, (Literal.string s).code = .ok text ∧ readText? text = some (s.toList.flatMap units) ∧
      (readText? text = some (points s) ↔ IsNarrow s)) ∧
    ∃ text, (Literal.list (ss.map .string)).code = .ok text ∧
      readTexts? text = some (ss.map fun x => x.toList.flatMap units) ∧
      (readTexts? text = some (ss.map points) ↔ ∀ x ∈ ss, IsNarrow x) := by
  refine ⟨⟨_, rfl, readText?_stringText s, ?_⟩,
    Text.bracketed (ss.map Literal.stringText), ?_, readTexts?_bracketed ss, ?_⟩
  · rw [readText?_stringText, Option.some.injEq]
    exact units_eq_points_iff
  · rw [Literal.code, codeAll_strings]
    rfl
  · rw [readTexts?_bracketed, Option.some.injEq, List.map_inj_left]
    exact forall₂_congr fun x _ => units_eq_points_iff

/-- A character above 16 bits is read as two code points, neither of which is its own. -/
theorem read_code_wide :
    ∃ text, (Literal.string "😀").code = .ok text ∧ text = "\"\\ud83d\\ude00\"" ∧
      readText? text = some [0xD83D, 0xDE00] ∧ readText? text ≠ some (points "😀") :=
  ⟨_, rfl, by decide, by decide, by decide⟩

end Code.Quoted

end SmlSchema
