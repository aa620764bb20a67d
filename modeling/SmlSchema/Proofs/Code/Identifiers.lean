import SmlSchema.Code.Identifier
import SmlSchema.Proofs.NameCalls
import SmlSchema.Proofs.Text.Identifier

/-! # Names as identifiers

A name becomes an identifier in steps: its characters are cleaned, the letter case of the first one
is set, and guards put something before the name or behind it. No guard undoes another one, and a
number behind the name undoes none, so that no name that is given can be taken for a word of the
language or of a generated module. It is an identifier unless the name that was asked for begins
with a mark: a character that may follow others in an identifier but not begin one.
-/

namespace SmlSchema

namespace Code

/-- What holds after the guard against taken words and is kept by the one against underscores holds
of an identifier. -/
theorem identifier_cases {P : String → Prop} {toUpper : Bool} {name : String}
    (hguarded : P (guardReserved (String.ofList
      (guardDigit (Text.leadingCaseChars toUpper (cleanChars name.toList))))))
    (hkept : ∀ s, P s → P (guardUnderscores s)) : P (identifier toUpper name) := by
  simp only [identifier]
  split
  · exact hkept _ hguarded
  · exact hguarded

/-! ## How names begin -/

/-- The name begins with a character of the kind. -/
def BeginsWith (P : Char → Prop) (name : String) : Prop :=
  ∃ c rest, name.toList = c :: rest ∧ P c

section

variable {P : Char → Prop} {name candidate : String} {toUpper : Bool}

theorem BeginsWith.ne_nil (h : BeginsWith P name) : name.toList ≠ [] := by
  obtain ⟨c, rest, hname, -⟩ := h
  rw [hname]
  exact List.cons_ne_nil c rest

theorem beginsWith_iff {c : Char} {cs : List Char} (h : name.toList = c :: cs) :
    BeginsWith P name ↔ P c := by
  constructor
  · rintro ⟨d, ds, hname, hd⟩
    cases h.symm.trans hname
    exact hd
  · exact fun hc => ⟨c, cs, h, hc⟩

/-- A longer name begins as the name does. -/
theorem beginsWith_append {ds : List Char} (hne : name.toList ≠ [])
    (h : candidate.toList = name.toList ++ ds) : BeginsWith P candidate ↔ BeginsWith P name := by
  obtain ⟨c, cs, hname⟩ := List.exists_cons_of_ne_nil hne
  rw [beginsWith_iff hname]
  exact beginsWith_iff (by rw [h, hname, List.cons_append])

/-- A number behind a name leaves its beginning as it is. -/
theorem beginsWith_candidate (hne : name.toList ≠ []) (h : candidate ∈ Names.candidates name) :
    BeginsWith P candidate ↔ BeginsWith P name := by
  obtain ⟨ds, hds, -⟩ := Names.toList_candidate h
  exact beginsWith_append hne hds

/-- A guarded name begins with an underscore in place of a digit. -/
theorem beginsWith_guardDigit (hunderscore : P '_') (c : Char) (cs : List Char) :
    BeginsWith P (String.ofList (guardDigit (c :: cs))) ↔ Text.isDigit c ∨ P c := by
  unfold guardDigit
  split
  · rename_i hdigit
    have hdigit : Text.isDigit c = true := hdigit
    rw [beginsWith_iff String.toList_ofList]
    exact iff_of_true hunderscore (.inl hdigit)
  · rename_i hdigit
    have hdigit : ¬ Text.isDigit c = true := hdigit
    rw [beginsWith_iff String.toList_ofList, or_iff_right hdigit]

/-- An underscore behind a name does not change how it begins. -/
theorem beginsWith_guardReserved (hne : name.toList ≠ []) :
    BeginsWith P (guardReserved name) ↔ BeginsWith P name := by
  unfold guardReserved
  split
  · exact beginsWith_append hne String.toList_append
  · rfl

/-- The word in front of a name begins in upper case. -/
theorem beginsWith_guardUnderscores (hvalue : P 'V') (hunderscore : P '_') :
    BeginsWith P (guardUnderscores name) ↔ BeginsWith P name := by
  unfold guardUnderscores
  dsimp only
  split
  · rename_i hguard
    simp only [Bool.and_eq_true, decide_eq_true_eq] at hguard
    obtain ⟨rest, hname⟩ := List.head?_eq_some_iff.mp hguard.1.2
    refine iff_of_true ?_ ((beginsWith_iff hname).mpr hunderscore)
    exact (beginsWith_iff (by rw [String.toList_append]; rfl)).mpr hvalue
  · rfl

theorem cleanChars_ne_nil (cs : List Char) : cleanChars cs ≠ [] := by
  unfold cleanChars
  split
  · exact List.cons_ne_nil _ _
  · assumption

/-- The character is in the letter case, or it has none. -/
def InCase (toUpper : Bool) (c : Char) : Prop :=
  (if toUpper then Text.upperChar c else Text.lowerChar c) = [c]

instance (toUpper : Bool) (c : Char) : Decidable (InCase toUpper c) :=
  inferInstanceAs (Decidable (_ = _))

/-- A character in upper or lower case begins with a character in that case. -/
theorem exists_form (toUpper : Bool) (c : Char) :
    ∃ d rest, (if toUpper then Text.upperChar c else Text.lowerChar c) = d :: rest ∧
      InCase toUpper d := by
  cases toUpper with
  | true => exact Text.upperChar_head c
  | false => exact Text.lowerChar_head c

/-- A name with its first letter in a case begins in that case. -/
theorem exists_leadingCaseChars (toUpper : Bool) (name : String) :
    ∃ c cs, Text.leadingCaseChars toUpper (cleanChars name.toList) = c :: cs ∧
      InCase toUpper c := by
  obtain ⟨c, cs, hclean⟩ := List.exists_cons_of_ne_nil (cleanChars_ne_nil name.toList)
  obtain ⟨d, rest, hform, hd⟩ := exists_form toUpper c
  exact ⟨d, rest ++ cs, by rw [hclean, Text.leadingCaseChars, hform, List.cons_append], hd⟩

/-- The guards change the beginning of a name only if it is a digit, or one underscore of two. -/
theorem beginsWith_identifier {c : Char} {cs : List Char}
    (hcase : Text.leadingCaseChars toUpper (cleanChars name.toList) = c :: cs)
    (hvalue : toUpper = true → P 'V') (hunderscore : P '_') :
    BeginsWith P (identifier toUpper name) ↔ Text.isDigit c ∨ P c := by
  have hne : (String.ofList (guardDigit (c :: cs))).toList ≠ [] :=
    ((beginsWith_guardDigit (P := fun _ => True) trivial c cs).mpr (.inr trivial)).ne_nil
  simp only [identifier, hcase]
  cases toUpper with
  | true =>
      rw [if_pos rfl, beginsWith_guardUnderscores (hvalue rfl) hunderscore,
        beginsWith_guardReserved hne, beginsWith_guardDigit hunderscore]
  | false =>
      rw [if_neg Bool.false_ne_true, beginsWith_guardReserved hne,
        beginsWith_guardDigit hunderscore]

end

/-! ## Characters of identifiers -/

/-- The name can stand where an identifier is expected: its first character may begin one, and the
others may follow. -/
def IsIdentifier (name : String) : Prop :=
  ∃ c rest, name.toList = c :: rest ∧ Text.startsIdentifier c ∧
    ∀ d ∈ rest, Text.continuesIdentifier d

/-- All characters may follow others in an identifier. -/
def Continues (cs : List Char) : Prop := ∀ c ∈ cs, Text.continuesIdentifier c

/-- The character may follow others in an identifier, but it cannot begin one: in the letter case
that is asked for it is no letter, and no underscore is put before it as before a digit. -/
def IsMark (toUpper : Bool) (c : Char) : Prop :=
  Text.continuesIdentifier c ∧ ¬ Text.leadsIdentifier c ∧ ¬ (toUpper = true ∧ c = '\u0345')

section

variable {name candidate : String} {toUpper : Bool} {c : Char} {cs ds : List Char}

/-- A name of which all characters may continue an identifier is one if its first may start one. -/
theorem isIdentifier_iff (h : Continues name.toList) :
    IsIdentifier name ↔ BeginsWith (Text.startsIdentifier ·) name := by
  constructor
  · rintro ⟨c, rest, hname, hc, -⟩
    exact ⟨c, rest, hname, hc⟩
  · rintro ⟨c, rest, hname, hc⟩
    refine ⟨c, rest, hname, hc, fun d hd => h d ?_⟩
    rw [hname]
    exact List.mem_cons_of_mem c hd

theorem Continues.append (hcs : Continues cs) (hds : Continues ds) : Continues (cs ++ ds) :=
  List.forall_mem_append.mpr ⟨hcs, hds⟩

theorem continues_singleton_underscore : Continues ['_'] :=
  List.forall_mem_singleton.mpr (by decide)

/-- Cleaning leaves only characters that may continue an identifier. -/
theorem continues_cleanChars (cs : List Char) : Continues (cleanChars cs) := by
  unfold cleanChars
  split
  · exact continues_singleton_underscore
  · intro d hd
    obtain ⟨c, -, rfl⟩ := List.mem_map.mp hd
    split
    · assumption
    · exact continues_singleton_underscore '_' List.mem_cons_self

theorem keepsIdentifier_case (toUpper : Bool) (c : Char) :
    Text.KeepsIdentifier (if toUpper then ['\u0345'] else []) c
      (if toUpper then Text.upperChar c else Text.lowerChar c) := by
  cases toUpper with
  | true => exact Text.upperChar_keepsIdentifier c
  | false => exact Text.lowerChar_keepsIdentifier c

/-- Setting the first case keeps the characters of an identifier. -/
theorem continues_leadingCaseChars (h : Continues cs) :
    Continues (Text.leadingCaseChars toUpper cs) := by
  cases cs with
  | nil => exact h
  | cons c cs =>
      obtain ⟨hc, hcs⟩ := List.forall_mem_cons.mp h
      exact Continues.append (keepsIdentifier_case toUpper c hc).1 hcs

theorem continues_guardDigit (h : Continues cs) : Continues (guardDigit cs) := by
  unfold guardDigit
  split
  · exact continues_singleton_underscore.append h
  · exact h

theorem continues_guardReserved (h : Continues name.toList) :
    Continues (guardReserved name).toList := by
  unfold guardReserved
  split
  · rw [String.toList_append]
    exact h.append continues_singleton_underscore
  · exact h

theorem continues_guardUnderscores (h : Continues name.toList) :
    Continues (guardUnderscores name).toList := by
  have hvalue : Continues "Value".toList := List.all_eq_true.mp (by decide)
  unfold guardUnderscores
  dsimp only
  split
  · rw [String.toList_append]
    exact hvalue.append h
  · exact h

/-- All characters of an identifier for a name may continue one. -/
theorem continues_identifier (toUpper : Bool) (name : String) :
    Continues (identifier toUpper name).toList := by
  refine identifier_cases (P := fun s => Continues s.toList) (continues_guardReserved ?_)
    fun _ => continues_guardUnderscores
  rw [String.toList_ofList]
  exact continues_guardDigit (continues_leadingCaseChars (continues_cleanChars name.toList))

theorem continues_of_isDecimal (h : Scalar.isDecimal c) : Text.continuesIdentifier c := by
  have hall : ∀ n < 10, Text.continuesIdentifier (Nat.digitChar n) := by decide
  obtain ⟨n, hn, rfl⟩ := Scalar.eq_digitChar_of_isDecimal h
  exact hall n hn

/-- A number behind a name keeps the characters of an identifier. -/
theorem continues_candidate (h : Continues name.toList) (hmem : candidate ∈ Names.candidates name) :
    Continues candidate.toList := by
  obtain ⟨ds, hds, hdecimal⟩ := Names.toList_candidate hmem
  rw [hds]
  exact h.append fun d hd => continues_of_isDecimal (hdecimal d hd)

/-- After the cleaning and the change of letter case a name begins with a character that leads an
identifier, unless it began with a mark. -/
theorem exists_first (toUpper : Bool) (h : name.toList = c :: cs) :
    ∃ d ds, Text.leadingCaseChars toUpper (cleanChars name.toList) = d :: ds ∧
      (Text.leadsIdentifier d ↔ ¬ IsMark toUpper c) := by
  let e := if Text.continuesIdentifier c then c else '_'
  have hclean : ∃ es, cleanChars name.toList = e :: es := ⟨_, by rw [h]; rfl⟩
  obtain ⟨es, hclean⟩ := hclean
  obtain ⟨d, rest, hform, -⟩ := exists_form toUpper e
  refine ⟨d, rest ++ es, by rw [hclean, Text.leadingCaseChars, hform, List.cons_append], ?_⟩
  have he : Text.continuesIdentifier e :=
    continues_cleanChars name.toList e (by rw [hclean]; exact List.mem_cons_self)
  have hexception : e ∈ (if toUpper then ['\u0345'] else []) ↔ toUpper = true ∧ e = '\u0345' := by
    cases toUpper <;> simp
  rw [(keepsIdentifier_case toUpper e he).2 d rest hform, hexception, IsMark]
  by_cases hc : Text.continuesIdentifier c = true
  · have hec : e = c := if_pos hc
    rw [hec]
    tauto
  · have hec : e = '_' := if_neg hc
    have hlead : Text.leadsIdentifier '_' = true := by decide
    rw [hec]
    exact iff_of_true (.inl hlead) fun hmark => hc hmark.1

/-- The identifier for a name is one, except where its first character is a mark. -/
theorem isIdentifier_identifier (toUpper : Bool) (hne : name.toList ≠ []) :
    IsIdentifier (identifier toUpper name) ↔ ¬ BeginsWith (IsMark toUpper) name := by
  obtain ⟨c, cs, hname⟩ := List.exists_cons_of_ne_nil hne
  obtain ⟨d, ds, hcase, hd⟩ := exists_first toUpper hname
  rw [isIdentifier_iff (continues_identifier toUpper name), beginsWith_iff hname, ← hd,
    beginsWith_identifier hcase (fun _ => by decide) (by decide),
    Text.leadsIdentifier, Bool.or_eq_true, or_comm]

end

/-! ## Words that are taken -/

section

variable {name candidate : String} {toUpper : Bool}

/-- The words that no name may be. -/
def takenWords : List String := keywords ++ reservedNames

/-- The name is at least two characters long and stands between underscores. -/
def Enclosed (name : String) : Prop :=
  1 < name.toList.length ∧ name.toList.head? = some '_' ∧ name.toList.getLast? = some '_'

/-- No taken word has an underscore or a digit. -/
theorem plain_of_mem_takenWords (h : name ∈ takenWords) {c : Char} (hc : c ∈ name.toList) :
    c ≠ '_' ∧ ¬ Scalar.isDecimal c := by
  have hall : takenWords.all (·.toList.all fun c => c != '_' && !Scalar.isDecimal c) = true := by
    decide +kernel
  have hplain := List.all_eq_true.mp (List.all_eq_true.mp hall name h) c hc
  simpa using hplain

/-- With the guard, a name is no taken word. -/
theorem guardReserved_not_mem (name : String) : guardReserved name ∉ takenWords := by
  unfold guardReserved
  split
  · intro hmem
    refine (plain_of_mem_takenWords hmem (c := '_') ?_).1 rfl
    rw [String.toList_append]
    exact List.mem_append_right _ List.mem_cons_self
  · rename_i hfree
    simpa [takenWords] using hfree

/-- The word in front of a name makes no taken word. -/
theorem guardUnderscores_not_mem (h : name ∉ takenWords) : guardUnderscores name ∉ takenWords := by
  unfold guardUnderscores
  dsimp only
  split
  · rename_i hguard
    simp only [Bool.and_eq_true, decide_eq_true_eq] at hguard
    intro hmem
    refine (plain_of_mem_takenWords hmem (c := '_') ?_).1 rfl
    rw [String.toList_append]
    exact List.mem_append_right _ (List.mem_of_mem_head? hguard.1.2)
  · exact h

/-- A number behind a name makes no taken word. -/
theorem candidate_not_mem (h : name ∉ takenWords) (hmem : candidate ∈ Names.candidates name) :
    candidate ∉ takenWords := by
  obtain ⟨ds, hds, hdecimal⟩ := Names.toList_candidate hmem
  cases ds with
  | nil =>
      rw [List.append_nil] at hds
      rwa [String.toList_inj.mp hds]
  | cons d ds =>
      intro htaken
      have hd : d ∈ candidate.toList := by
        rw [hds]
        exact List.mem_append_right _ List.mem_cons_self
      exact (plain_of_mem_takenWords htaken hd).2 (hdecimal d List.mem_cons_self)

/-- With the guard, a name is not enclosed in underscores. -/
theorem not_enclosed_guardUnderscores (name : String) : ¬ Enclosed (guardUnderscores name) := by
  unfold guardUnderscores
  dsimp only
  split
  · rintro ⟨-, hhead, -⟩
    rw [String.toList_append] at hhead
    cases hhead
  · rename_i hguard
    simpa [Enclosed] using hguard

/-- A number behind a name does not enclose it in underscores. -/
theorem not_enclosed_candidate (h : ¬ Enclosed name) (hmem : candidate ∈ Names.candidates name) :
    ¬ Enclosed candidate := by
  obtain ⟨ds, hds, hdecimal⟩ := Names.toList_candidate hmem
  rcases List.eq_nil_or_concat ds with rfl | ⟨front, d, rfl⟩
  · rw [List.append_nil] at hds
    rwa [String.toList_inj.mp hds]
  · rintro ⟨-, -, hlast⟩
    rw [hds, List.concat_eq_append, ← List.append_assoc, List.getLast?_concat] at hlast
    cases hlast
    exact absurd (hdecimal '_' (by simp)) (by decide)

/-- An identifier for a name is no taken word. -/
theorem identifier_not_mem (toUpper : Bool) (name : String) :
    identifier toUpper name ∉ takenWords :=
  identifier_cases (P := (· ∉ takenWords)) (guardReserved_not_mem _)
    fun _ => guardUnderscores_not_mem

/-- An identifier in upper case is not enclosed in underscores. -/
theorem not_enclosed_identifier (name : String) : ¬ Enclosed (identifier true name) := by
  simp only [identifier, if_true]
  exact not_enclosed_guardUnderscores _

/-- An identifier for a name does not begin with a digit. -/
theorem identifier_no_digit (toUpper : Bool) (name : String) :
    BeginsWith (Text.isDigit · = false) (identifier toUpper name) := by
  obtain ⟨c, cs, hcase, -⟩ := exists_leadingCaseChars toUpper name
  rw [beginsWith_identifier hcase (fun _ => by decide) (by decide)]
  cases Text.isDigit c <;> simp

end

/-! ## Names that are given -/

section

variable {ε κ : Type} {n : Names ε κ} {toUpper : Bool} {base name : String}

/-- A name that is given is an identifier if and only if the name that was asked for does not begin
with a mark. -/
theorem isIdentifier_iff_of_generate (hn : n.normalize = identifier toUpper)
    (h : n.generate base = .ok name) :
    IsIdentifier name ↔ ¬ BeginsWith (IsMark toUpper) base := by
  have hbase : base.toList ≠ [] := by
    rw [ne_eq, String.toList_eq_nil_iff]
    exact (Names.generate_eq_ok.mp h).1
  have hmem := Names.mem_candidates_of_generate h
  rw [hn] at hmem
  have hcontinues := continues_identifier toUpper base
  rw [← isIdentifier_identifier toUpper hbase, isIdentifier_iff hcontinues,
    isIdentifier_iff (continues_candidate hcontinues hmem),
    beginsWith_candidate (identifier_no_digit toUpper base).ne_nil hmem]

/-- The letter becomes two in upper case, and the identifier made of them is in use. -/
theorem isIdentifier_iff_of_generate_sharp :
    ((MemberNames.start true).take "SS_1").generate "ß-1" = .ok "SS_12" ∧
      IsIdentifier "SS_12" := by
  have hn : ((MemberNames.start true).take "SS_1").normalize = identifier true := by
    rw [Names.normalize_take, MemberNames.start]
  have h : ((MemberNames.start true).take "SS_1").generate "ß-1" = .ok "SS_12" :=
    eq_ok_of_toOption (by decide +kernel)
  refine ⟨h, (isIdentifier_iff_of_generate hn h).mpr ?_⟩
  rw [beginsWith_iff (show "ß-1".toList = ['ß', '-', '1'] from rfl)]
  exact fun hmark => hmark.2.1 (by decide)

/-- A middle dot may follow others in an identifier. It is kept, and nothing is put before it. -/
theorem not_isIdentifier_middleDot :
    (MemberNames.start false).generate "·" = .ok "·" ∧ ¬ IsIdentifier "·" := by
  refine ⟨eq_ok_of_toOption (by decide), ?_⟩
  rintro ⟨c, rest, hname, hc, -⟩
  cases (show "·".toList = ['·'] from rfl).symm.trans hname
  exact absurd hc (by decide +kernel)

/-- The name hides nothing: it is no word of the language or of a generated module, begins with no
digit, and as a member of an enumeration it does not stand between underscores. -/
structure SetApart (toUpper : Bool) (name : String) : Prop where
  not_keyword : name ∉ keywords
  not_reserved : name ∉ reservedNames
  no_digit : ¬ BeginsWith (Text.isDigit ·) name
  not_enclosed : toUpper = true → ¬ Enclosed name

/-- A name that is generated for identifiers is set apart from all other words. -/
theorem setApart_of_generate (hn : n.normalize = identifier toUpper)
    (h : n.generate base = .ok name) : SetApart toUpper name := by
  have hmem := Names.mem_candidates_of_generate h
  rw [hn] at hmem
  have hfree := candidate_not_mem (identifier_not_mem toUpper base) hmem
  have hbegins := identifier_no_digit toUpper base
  exact {
    not_keyword := fun hkeyword => hfree (List.mem_append_left _ hkeyword)
    not_reserved := fun hreserved => hfree (List.mem_append_right _ hreserved)
    no_digit := by
      obtain ⟨c, cs, hname, hc⟩ := (beginsWith_candidate hbegins.ne_nil hmem).mpr hbegins
      rw [beginsWith_iff hname, hc]
      exact Bool.false_ne_true
    not_enclosed := by
      rintro rfl
      exact not_enclosed_candidate (not_enclosed_identifier base) hmem }

/-- The digit, the underscores and the number are guarded one after the other. -/
theorem setApart_of_generate_digit :
    ((MemberNames.start true).take "Value_3_").generate "3_" = .ok "Value_3_2" ∧
      SetApart true "Value_3_2" := by
  have hn : ((MemberNames.start true).take "Value_3_").normalize = identifier true := by
    rw [Names.normalize_take, MemberNames.start]
  have h : ((MemberNames.start true).take "Value_3_").generate "3_" = .ok "Value_3_2" :=
    eq_ok_of_toOption (by decide)
  exact ⟨h, setApart_of_generate hn h⟩

end

end Code

end SmlSchema
