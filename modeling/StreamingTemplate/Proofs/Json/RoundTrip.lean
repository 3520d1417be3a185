import StreamingTemplate.Json.Read
import StreamingTemplate.Json.Print

/-!
# Printed values read back

`parse?_text`: the compact text of a value is a document of that value, if every number in the value
is read back from its own text and the value is nested less than the limit. Strings and keys need
no such hypothesis.

The texts of the grammar are read off the front of what follows them, so each reader comes with a
lemma about what it makes of a text with something behind it. Of what follows a number this asks
that it does not go on with the number (`EndsNumber`), which the commas and brackets of the compact
form do not.
-/

namespace StreamingTemplate.Json.Syntax

/-! ## Numbers

A number is read as far as it goes: an optional minus, the whole part, a fraction and an
exponent, each up to the first character that cannot belong to it. What stands behind a number
matters for that only in its first character, and `EndsNumber` says what this may not be. -/

/-- Digits are read as far as they go. -/
theorem digits?_eq_some_iff {cs ds r : List Char} :
    digits? cs = some (ds, r) ↔
      ds ≠ [] ∧ cs = ds ++ r ∧ (∀ d ∈ ds, d.isDigit = true) ∧
        ∀ c ∈ r.head?, c.isDigit = false := by
  constructor
  · intro h
    rw [digits?] at h
    split at h
    · cases h
    · rename_i hne
      obtain ⟨rfl, rfl⟩ := Prod.mk.inj (Option.some.inj h)
      have hdigits : ∀ d ∈ cs.takeWhile Char.isDigit, d.isDigit = true :=
        List.all_eq_true.mp List.all_takeWhile
      refine ⟨hne, List.takeWhile_append_dropWhile.symm, hdigits, fun c hc => ?_⟩
      have hstop := List.head?_dropWhile_not Char.isDigit cs
      rw [Option.mem_def.mp hc] at hstop
      simpa using hstop
  · rintro ⟨hne, rfl, hds, hr⟩
    have hstop : r.takeWhile Char.isDigit = [] ∧ r.dropWhile Char.isDigit = r := by
      cases r with
      | nil => exact ⟨rfl, rfl⟩
      | cons c tail => simp [hr c rfl]
    rw [digits?, List.takeWhile_append_of_pos hds, List.dropWhile_append_of_pos hds, hstop.1,
      hstop.2, List.append_nil]
    cases ds with
    | nil => exact absurd rfl hne
    | cons => rfl

/-- Text that is no part of a number in front of it: no digit, point or mark of an exponent is at
its front. A sign needs no mention, since it may only stand behind such a mark. -/
def EndsNumber (rest : List Char) : Prop :=
  ∀ c ∈ rest.head?, c.isDigit = false ∧ c ≠ '.' ∧ c ≠ 'e' ∧ c ≠ 'E'

variable {cs ds r rest : List Char}

theorem EndsNumber.nil : EndsNumber [] := nofun

/-- Where text ends no number, what a part of the number has left of the text in front of it is not
empty, or the text that follows is no part of it either. -/
theorem EndsNumber.behind (hrest : EndsNumber rest) (hr : ∀ c ∈ r.head?, c.isDigit = false) :
    ∀ c ∈ (r ++ rest).head?, c.isDigit = false := by
  cases r with
  | nil => exact fun c hc => (hrest c hc).1
  | cons => exact hr

/-- Digits end where they did, if what follows is no digit either. Each part of a number has this
law: read from a longer text it is the same part, with more left behind it. -/
theorem digits?_append (h : digits? cs = some (ds, r)) (hrest : EndsNumber rest) :
    digits? (cs ++ rest) = some (ds, r ++ rest) := by
  obtain ⟨hne, rfl, hds, hr⟩ := digits?_eq_some_iff.mp h
  exact digits?_eq_some_iff.mpr ⟨hne, List.append_assoc .., hds, hrest.behind hr⟩

theorem whole?_append (h : whole? cs = some (ds, r)) (hrest : EndsNumber rest) :
    whole? (cs ++ rest) = some (ds, r ++ rest) := by
  obtain ⟨⟨ds', r'⟩, hdigits, hwhole⟩ := Option.bind_eq_some_iff.mp h
  rw [whole?, digits?_append hdigits hrest]
  dsimp only [Option.bind_eq_bind, Option.bind_some] at hwhole ⊢
  split at hwhole
  · cases hwhole
  · cases hwhole
    rfl

/-- A fraction that is read, or not there, stays so: what follows does not start with a point. -/
theorem fraction?_append (h : fraction? cs = some (ds, r)) (hrest : EndsNumber rest) :
    fraction? (cs ++ rest) = some (ds, r ++ rest) := by
  unfold fraction? at h
  split at h
  · exact digits?_append h hrest
  · rename_i hpoint
    cases h
    unfold fraction?
    split
    · rename_i tail hcs
      cases cs with
      | nil =>
        rw [List.nil_append] at hcs
        exact absurd rfl (hrest '.' (by rw [hcs]; rfl)).2.1
      | cons c cs =>
        cases hcs
        exact absurd rfl (hpoint _)
    · rfl

/-- An exponent that is read, or not there, stays so. Behind its mark there may be a sign, so the
cases are no mark, a mark with a sign and a mark without. -/
theorem exponent?_append {exponent : Option (Bool × List Char)}
    (h : exponent? cs = some (exponent, r)) (hrest : EndsNumber rest) :
    exponent? (cs ++ rest) = some (exponent, r ++ rest) := by
  cases cs with
  | nil =>
    cases h
    cases rest with
    | nil => rfl
    | cons c tail =>
      obtain ⟨-, -, he, hE⟩ := hrest c rfl
      simp [exponent?, he, hE]
  | cons c cs =>
    unfold exponent? at h ⊢
    rw [List.cons_append]
    dsimp only at h ⊢
    split at h
    · rename_i hletter
      rw [if_pos hletter]
      obtain ⟨⟨ds, r'⟩, hdigits, hexponent⟩ := Option.bind_eq_some_iff.mp h
      cases hexponent
      -- the sign stands in the text in front, because digits stand behind it
      cases cs with
      | nil => cases hdigits
      | cons s cs =>
        by_cases hminus : s = '-'
        · subst s
          have hdigits : digits? cs = some (ds, r') := hdigits
          simp [digits?_append hdigits hrest]
        · by_cases hplus : s = '+'
          · subst s
            have hdigits : digits? cs = some (ds, r') := hdigits
            simp [digits?_append hdigits hrest]
          · simp only [List.cons.injEq, hminus, hplus, false_and, imp_self, implies_true]
              at hdigits ⊢
            have hmore := digits?_append hdigits hrest
            rw [List.cons_append] at hmore
            simp [hminus, hplus, hmore]
    · rename_i hletter
      cases h
      rw [if_neg hletter]
      rfl

/-- Behind its sign a number is read in three parts. -/
theorem numberParts_append {negative : Bool} {n : NumberText} (hrest : EndsNumber rest)
    (h : (do
      let (whole, cs) ← whole? cs
      let (fraction, cs) ← fraction? cs
      let (exponent, cs) ← exponent? cs
      return (⟨negative, whole, fraction, exponent⟩, cs)) = some (n, r)) :
    (do
      let (whole, cs) ← whole? (cs ++ rest)
      let (fraction, cs) ← fraction? cs
      let (exponent, cs) ← exponent? cs
      return (⟨negative, whole, fraction, exponent⟩, cs)) = some (n, r ++ rest) := by
  obtain ⟨⟨whole, cs₁⟩, hwhole, h⟩ := Option.bind_eq_some_iff.mp h
  obtain ⟨⟨fraction, cs₂⟩, hfraction, h⟩ := Option.bind_eq_some_iff.mp h
  obtain ⟨⟨exponent, cs₃⟩, hexponent, h⟩ := Option.bind_eq_some_iff.mp h
  cases h
  simp [whole?_append hwhole hrest, fraction?_append hfraction hrest,
    exponent?_append hexponent hrest]

/-- **A number with text behind it** is read as the number alone was, and the text is what is
left. -/
theorem number?_append {n : NumberText} (h : number? cs = some (n, r)) (hrest : EndsNumber rest) :
    number? (cs ++ rest) = some (n, r ++ rest) := by
  unfold number? at h ⊢
  cases cs with
  | nil => cases h
  | cons c cs =>
    -- a minus sign alone is no number, so the text that follows does not supply it
    by_cases hminus : c = '-'
    · subst c
      exact numberParts_append hrest h
    · simp only [List.cons_append, List.cons.injEq, hminus, false_and, imp_self, implies_true]
        at h ⊢
      exact numberParts_append hrest h

/-- A number starts with a digit or a minus sign. -/
theorem number?_starts {n : NumberText} (h : number? cs = some (n, r)) :
    ∃ c tail, cs = c :: tail ∧ (c = '-' ∨ c.isDigit = true) := by
  unfold number? at h
  cases cs with
  | nil => cases h
  | cons c cs =>
    refine ⟨c, cs, rfl, ?_⟩
    by_cases hminus : c = '-'
    · exact .inl hminus
    · simp only [List.cons.injEq, hminus, false_and, imp_self, implies_true] at h
      obtain ⟨⟨ds, cs₁⟩, hwhole, -⟩ := Option.bind_eq_some_iff.mp h
      obtain ⟨⟨ds', cs₂⟩, hdigits, -⟩ := Option.bind_eq_some_iff.mp hwhole
      obtain ⟨hne, hcs, hds, -⟩ := digits?_eq_some_iff.mp hdigits
      obtain ⟨d, ds', rfl⟩ := List.exists_cons_of_ne_nil hne
      obtain ⟨rfl, -⟩ := List.cons.inj hcs
      exact .inr (hds _ List.mem_cons_self)

/-! ## Blanks

Blanks may stand in front of every value and punctuation mark. The compact text has none, but the
text of a number that was read alone could have had some, and the laws for arrays and objects are
stated up to blanks for that reason. -/

theorem skipBlanks_cons {c : Char} (h : isBlank c = false) (cs : List Char) :
    skipBlanks (c :: cs) = c :: cs :=
  List.dropWhile_cons_of_neg (by simp [h])

/-- Blanks at the front of a text are those at the front of what it continues to, unless it is
blank all over. -/
theorem skipBlanks_append (cs rest : List Char) (h : skipBlanks cs ≠ []) :
    skipBlanks (cs ++ rest) = skipBlanks cs ++ rest := by
  unfold skipBlanks at h ⊢
  rw [List.dropWhile_append, if_neg (by simpa using h)]

theorem skipBlanks_append_of_nil {cs : List Char} (h : skipBlanks cs = []) (rest : List Char) :
    skipBlanks (cs ++ rest) = skipBlanks rest := by
  unfold skipBlanks at h ⊢
  rw [List.dropWhile_append, if_pos (by simpa using h)]

theorem skipBlanks_skipBlanks (cs : List Char) : skipBlanks (skipBlanks cs) = skipBlanks cs := by
  induction cs with
  | nil => rfl
  | cons c cs ih =>
    cases hc : isBlank c with
    | true =>
      have hskip : skipBlanks (c :: cs) = skipBlanks cs := List.dropWhile_cons_of_pos hc
      rw [hskip, ih]
    | false =>
      rw [skipBlanks_cons hc, skipBlanks_cons hc]

variable {fuel : Nat}

/-- What starts like a number is read as one. -/
theorem parseValue_number {c : Char} {tail : List Char} (hcs : skipBlanks cs = c :: tail)
    (hc : c = '-' ∨ c.isDigit = true) :
    parseValue (fuel + 1) cs =
      (number? (skipBlanks cs)).map fun (n, rest) => (.number n, rest) := by
  have hletters : ∀ letter ∈ ['n', 't', 'f', '"', '[', '{'],
      letter ≠ '-' ∧ letter.isDigit = false := by simp
  have hne : ∀ letter ∈ ['n', 't', 'f', '"', '[', '{'], c ≠ letter := by
    rintro letter hletter rfl
    obtain ⟨hminus, hdigit⟩ := hletters c hletter
    rcases hc with hc | hc
    · exact hminus hc
    · exact absurd hc (by simp [hdigit])
  rw [parseValue, hcs]
  split
  all_goals first
    | rfl
    | rename_i heq
      exact absurd (List.cons.inj heq).1 (hne _ (by decide))

/-- A tree of a number comes from the reader of numbers and from nowhere else. -/
theorem parseValue_eq_number {n : NumberText}
    (h : parseValue (fuel + 1) cs = some (.number n, r)) :
    number? (skipBlanks cs) = some (n, r) := by
  unfold parseValue at h
  split at h
  · cases h
  · cases h
  · cases h
  · obtain ⟨_, -, heq⟩ := Option.map_eq_some_iff.mp h
    cases heq
  · split at h
    · cases h
    · obtain ⟨_, -, heq⟩ := Option.map_eq_some_iff.mp h
      cases heq
  · split at h
    · cases h
    · obtain ⟨_, -, heq⟩ := Option.map_eq_some_iff.mp h
      cases heq
  · obtain ⟨⟨n', r'⟩, hnumber, heq⟩ := Option.map_eq_some_iff.mp h
    cases heq
    exact hnumber

/-! ## Strings

A character is written as itself, as a short escape or as a code unit. Each of the three is one
piece for the reader (`exists_spells`), and the pieces of a string are decoded to its characters
one by one. -/

theorem hexDigit?_hexDigit : ∀ n < 16, hexDigit? (hexDigit n) = some n := by decide

/-- The four digits that a control character is written with are read as its number. -/
theorem hexUnit?_hexDigit {n : Nat} (h : n < 32) :
    hexUnit? '0' '0' (hexDigit (n / 16)) (hexDigit (n % 16)) = some n := by
  have hhigh := hexDigit?_hexDigit (n / 16) (by omega)
  have hlow := hexDigit?_hexDigit (n % 16) (by omega)
  have hzero := hexDigit?_hexDigit 0 (by omega)
  have hzero : hexDigit? '0' = some 0 := hzero
  simp only [hexUnit?, hzero, hhigh, hlow]
  exact congrArg some (by omega)

/-- A character that is no control character, quote or backslash is a piece of its own. -/
theorem stringBody?_plain {c : Char} {cs : List Char} (hcontrol : 32 ≤ c.toNat) (hquote : c ≠ '"')
    (hbackslash : c ≠ '\\') :
    stringBody? (c :: cs) =
      (stringBody? cs).map fun (pieces, rest) => (.char c :: pieces, rest) := by
  have hplain : ¬(c.toNat < 32 || c == '\\') = true := by simp [hbackslash, hcontrol]
  rw [stringBody?, if_neg hplain]
  · cases stringBody? cs <;> rfl
  · exact fun h => absurd h hquote
  · exact fun _ _ _ _ _ h => absurd h hbackslash
  · exact fun _ _ h => absurd h hbackslash

/-- A backslash with a letter behind it is the character that the letter is short for. -/
theorem stringBody?_short {e c : Char} {cs : List Char} (h : shortEscape? e = some c) :
    stringBody? ('\\' :: e :: cs) =
      (stringBody? cs).map fun (pieces, rest) => (.char c :: pieces, rest) := by
  have hne : e ≠ 'u' := by
    rintro rfl
    cases h
  rw [stringBody?, h]
  · cases stringBody? cs <;> rfl
  · exact fun _ _ _ _ _ h => absurd h hne

theorem stringBody?_unit {a b c d : Char} {u : Nat} {cs : List Char}
    (h : hexUnit? a b c d = some u) :
    stringBody? ('\\' :: 'u' :: a :: b :: c :: d :: cs) =
      (stringBody? cs).map fun (pieces, rest) => (.unit u :: pieces, rest) := by
  rw [stringBody?, h]
  cases stringBody? cs <;> rfl

/-- A code unit of a control character is that character. -/
theorem chars?_control {c : Char} (hc : c.toNat < 32) (pieces : List StringPiece) :
    StringPiece.chars? (.unit c.toNat :: pieces) = (StringPiece.chars? pieces).map (c :: ·) := by
  have hhigh : ¬(0xD800 ≤ c.toNat ∧ c.toNat < 0xDC00) := by omega
  have hlow : ¬(0xDC00 ≤ c.toNat ∧ c.toNat < 0xE000) := by omega
  have halone : ¬(0xD800 ≤ c.toNat ∧ c.toNat < 0xE000) := by omega
  -- a unit may be half of a pair, so the decoder first looks whether another one follows
  by_cases hpair : ∃ lo rest, pieces = .unit lo :: rest
  · obtain ⟨lo, rest, rfl⟩ := hpair
    rw [StringPiece.chars?, if_neg hhigh, if_neg hlow, Char.ofNat_toNat]
  · rw [StringPiece.chars?, if_neg halone, Char.ofNat_toNat]
    exact fun lo rest heq => hpair ⟨lo, rest, heq⟩

/-- A piece that the written form of a character is read as. The two fields belong to the two
stages of the reader, which first cuts the literal into pieces and then decodes them. -/
structure Spells (piece : StringPiece) (c : Char) : Prop where
  body : ∀ cs, stringBody? (escapeChar c ++ cs) =
    (stringBody? cs).map fun (pieces, rest) => (piece :: pieces, rest)
  chars : ∀ pieces,
    StringPiece.chars? (piece :: pieces) = (StringPiece.chars? pieces).map (c :: ·)

theorem Spells.short {e c : Char} (h : shortEscape? e = some c)
    (hescape : escapeChar c = ['\\', e]) : Spells (.char c) c where
  body cs := by
    rw [hescape]
    exact stringBody?_short h
  chars _ := rfl

/-- **A character of a string** is read as one piece that stands for it. The cases are those of
the writer: five control characters, the quote and the backslash have a short form, other control
characters are written as code units, and every other character is written as itself. -/
theorem exists_spells (c : Char) : ∃ piece, Spells piece c := by
  by_cases hmem : c ∈ ['"', '\\', '\x08', '\x0c', '\n', '\r', '\t']
  · refine ⟨.char c, ?_⟩
    simp only [List.mem_cons, List.not_mem_nil, or_false] at hmem
    obtain rfl | rfl | rfl | rfl | rfl | rfl | rfl := hmem
    · exact .short (e := '"') rfl rfl
    · exact .short (e := '\\') rfl rfl
    · exact .short (e := 'b') rfl rfl
    · exact .short (e := 'f') rfl rfl
    · exact .short (e := 'n') rfl rfl
    · exact .short (e := 'r') rfl rfl
    · exact .short (e := 't') rfl rfl
  · simp only [List.mem_cons, List.not_mem_nil, or_false, not_or] at hmem
    obtain ⟨hquote, hbackslash, hb, hf, hn, hr, ht⟩ := hmem
    by_cases hcontrol : c.toNat < 32
    · refine ⟨.unit c.toNat, fun cs => ?_, chars?_control hcontrol⟩
      have hescape : escapeChar c =
          ['\\', 'u', '0', '0', hexDigit (c.toNat / 16), hexDigit (c.toNat % 16)] := by
        simp [escapeChar, *]
      rw [hescape]
      exact stringBody?_unit (hexUnit?_hexDigit hcontrol)
    · refine ⟨.char c, fun cs => ?_, fun pieces => rfl⟩
      have hescape : escapeChar c = [c] := by simp [escapeChar, *]
      rw [hescape]
      exact stringBody?_plain (by omega) hquote hbackslash

/-- **A string literal** is read as pieces that stand for the string. -/
theorem exists_pieces (s : List Char) : ∃ pieces,
    (∀ cs, stringBody? (s.flatMap escapeChar ++ '"' :: cs) = some (pieces, cs)) ∧
      StringPiece.chars? pieces = some s := by
  induction s with
  | nil => exact ⟨[], fun cs => rfl, rfl⟩
  | cons c s ih =>
    obtain ⟨pieces, hbody, hchars⟩ := ih
    obtain ⟨piece, hspells⟩ := exists_spells c
    refine ⟨piece :: pieces, fun cs => ?_, ?_⟩
    · rw [List.flatMap_cons, List.append_assoc, hspells.body, hbody]
      rfl
    · rw [hspells.chars, hchars]
      rfl

/-! ## Arrays and objects

The readers of items and fields are mutual with that of values, on fuel. These equations say what
the reader of values does with a text that starts with a bracket or a brace, so that the laws
below never unfold it. -/

theorem parseValue_skipBlanks (cs : List Char) :
    parseValue fuel (skipBlanks cs) = parseValue fuel cs := by
  cases fuel with
  | zero => rfl
  | succ fuel => rw [parseValue, parseValue, skipBlanks_skipBlanks]

/-- No value starts with a closing bracket. -/
theorem parseValue_bracket (h : skipBlanks cs = ']' :: rest) : parseValue fuel cs = none := by
  cases fuel with
  | zero => rfl
  | succ fuel =>
    rw [parseValue, h]
    rfl

theorem parseValue_openBracket :
    parseValue (fuel + 1) ('[' :: cs) =
      match skipBlanks cs with
      | ']' :: rest => some (.array [], rest)
      | rest => (parseItems fuel rest).map fun (items, rest) => (.array items, rest) := by
  rw [parseValue, skipBlanks_cons rfl]
  rfl

/-- Items in brackets are an array. No item starts with the closing bracket, so that the reader
does not take the array for an empty one. -/
theorem parseValue_array {items : List Syntax} (h : parseItems fuel cs = some (items, rest)) :
    parseValue (fuel + 1) ('[' :: cs) = some (.array items, rest) := by
  cases fuel with
  | zero => cases h
  | succ fuel =>
    rw [parseValue_openBracket]
    rw [parseItems] at h
    split
    · rename_i hclose
      rw [parseValue_bracket hclose] at h
      cases h
    · rw [parseItems, parseValue_skipBlanks, h]
      rfl

/-- Fields start with the quote of a key. -/
theorem parseFields_starts {fields : List (List StringPiece × Syntax)}
    (h : parseFields fuel cs = some (fields, rest)) : ∃ tail, skipBlanks cs = '"' :: tail := by
  cases fuel with
  | zero => cases h
  | succ fuel =>
    rw [parseFields] at h
    split at h
    · rename_i tail hquote
      exact ⟨tail, hquote⟩
    · cases h

theorem parseValue_openBrace :
    parseValue (fuel + 1) ('{' :: cs) =
      match skipBlanks cs with
      | '}' :: rest => some (.object [], rest)
      | rest => (parseFields fuel rest).map fun (fields, rest) => (.object fields, rest) := by
  rw [parseValue, skipBlanks_cons rfl]
  rfl

/-- Fields in braces are an object, by the same argument: a field starts with a quote. -/
theorem parseValue_object {fields : List (List StringPiece × Syntax)}
    (h : parseFields fuel cs = some (fields, rest)) :
    parseValue (fuel + 1) ('{' :: cs) = some (.object fields, rest) := by
  obtain ⟨tail, hquote⟩ := parseFields_starts h
  have hskip : parseFields fuel (skipBlanks cs) = some (fields, rest) := by
    cases fuel with
    | zero => cases h
    | succ fuel =>
      rw [parseFields] at h ⊢
      rwa [skipBlanks_skipBlanks]
  rw [parseValue_openBrace]
  split
  · rename_i hclose
    exact absurd (List.cons.inj (hquote.symm.trans hclose)).1 (by decide)
  · rw [hskip]
    rfl

end Syntax

/-! ## Values

`Reads` is the form in which the round trip goes through the grammar: some text is read as a
value with a given rest left behind. It hides the tree that is read first, and allows blanks in
front of the rest. -/

mutual

/-- How deep the arrays and objects of a value are nested. -/
def nesting : Json → Nat
  | .array items => nestingItems items + 1
  | .object fields => nestingFields fields + 1
  | _ => 0

/-- The deepest nesting among items. -/
def nestingItems : List Json → Nat
  | [] => 0
  | v :: rest => max (nesting v) (nestingItems rest)

/-- The deepest nesting among the values of fields. -/
def nestingFields : List (String × Json) → Nat
  | [] => 0
  | (_, v) :: rest => max (nesting v) (nestingFields rest)

end

mutual

/-- The numbers in a value, in the order in which they are written. -/
def numbers : Json → List Number
  | .number n => [n]
  | .array items => numbersOfItems items
  | .object fields => numbersOfFields fields
  | _ => []

/-- The numbers in items. -/
def numbersOfItems : List Json → List Number
  | [] => []
  | v :: rest => numbers v ++ numbersOfItems rest

/-- The numbers in the values of fields. -/
def numbersOfFields : List (String × Json) → List Number
  | [] => []
  | (_, v) :: rest => numbers v ++ numbersOfFields rest

end

/-- Whether a number is read back from its text as it was. -/
def Number.ReadsBack (n : Number) : Prop := parse? n.text = some (.number n)

namespace Syntax

/-- A value is read off the front of a text: there is a tree that denotes it, and behind it there
are but blanks in front of the rest. The value is nested less than `depth` levels. -/
def Reads (fuel depth : Nat) (cs : List Char) (v : Json) (rest : List Char) : Prop :=
  ∃ tree r, parseValue fuel cs = some (tree, r) ∧ skipBlanks r = skipBlanks rest ∧
    tree.value? depth = some v

/-- Items are read off a text, up to the bracket that closes them. -/
def ReadsItems (fuel depth : Nat) (cs : List Char) (vs : List Json) (rest : List Char) : Prop :=
  ∃ trees, parseItems fuel cs = some (trees, rest) ∧ items? depth trees = some vs

/-- Fields are read off a text, up to the brace that closes them. -/
def ReadsFields (fuel depth : Nat) (cs : List Char) (fs : List (String × Json))
    (rest : List Char) : Prop :=
  ∃ trees, parseFields fuel cs = some (trees, rest) ∧ fields? depth trees = some fs

variable {depth : Nat} {v : Json} {cs cs' rest : List Char}

/-- A value in front of a closing bracket is the last item, -/
theorem Reads.lastItem (h : Reads fuel depth cs v (']' :: rest)) :
    ReadsItems (fuel + 1) depth cs [v] rest := by
  obtain ⟨tree, r, hparse, hrest, hvalue⟩ := h
  refine ⟨[tree], ?_, ?_⟩
  · rw [parseItems, hparse]
    dsimp only
    rw [hrest, skipBlanks_cons rfl]
    rfl
  · simp [items?, hvalue]

/-- and one in front of a comma is followed by the items behind the comma. -/
theorem Reads.nextItem (h : Reads fuel depth cs v (',' :: cs')) {vs : List Json}
    (hitems : ReadsItems fuel depth cs' vs rest) :
    ReadsItems (fuel + 1) depth cs (v :: vs) rest := by
  obtain ⟨tree, r, hparse, hrest, hvalue⟩ := h
  obtain ⟨trees, hparses, hvalues⟩ := hitems
  refine ⟨tree :: trees, ?_, ?_⟩
  · rw [parseItems, hparse]
    dsimp only
    rw [hrest, skipBlanks_cons rfl]
    simp [hparses]
  · simp [items?, hvalue, hvalues]

/-- Items and the brackets around them are an array, one level deeper than the items. -/
theorem ReadsItems.array {vs : List Json} (h : ReadsItems fuel (depth + 1) cs vs rest) :
    Reads (fuel + 1) (depth + 2) ('[' :: cs) (.array vs) rest := by
  obtain ⟨trees, hparses, hvalues⟩ := h
  refine ⟨.array trees, rest, parseValue_array hparses, rfl, ?_⟩
  rw [value?, if_neg (by omega)]
  simp [hvalues]

theorem quote_append (s : String) (cs : List Char) :
    (quote s).toList ++ cs = '"' :: (s.toList.flatMap escapeChar ++ '"' :: cs) := by
  simp [quote]

/-- A string that is written as a literal is read back. -/
theorem stringBody?_quote (s : String) : ∃ pieces, StringPiece.text? pieces = some s ∧
    ∀ cs, stringBody? (s.toList.flatMap escapeChar ++ '"' :: cs) = some (pieces, cs) := by
  obtain ⟨pieces, hbody, hchars⟩ := exists_pieces s.toList
  refine ⟨pieces, ?_, hbody⟩
  rw [StringPiece.text?, hchars, Option.map_some, String.ofList_toList]

/-- **A string literal** is read as the string, whatever follows. -/
theorem reads_string (s : String) (rest : List Char) :
    Reads (fuel + 1) depth ((quote s).toList ++ rest) (.string s) rest := by
  obtain ⟨pieces, htext, hbody⟩ := stringBody?_quote s
  refine ⟨.string pieces, rest, ?_, rfl, ?_⟩
  · have hopen : ∀ cs, parseValue (fuel + 1) ('"' :: cs) =
        (stringBody? cs).map fun (pieces, rest) => (.string pieces, rest) := by
      intro cs
      rw [parseValue, skipBlanks_cons rfl]
      rfl
    rw [quote_append, hopen, hbody]
    rfl
  · rw [value?, htext]
    rfl

/-- The key of a field is read in front of its value. -/
theorem parseFields_key (key : String) : ∃ pieces, StringPiece.text? pieces = some key ∧
    ∀ fuel cs, parseFields (fuel + 1) ((quote key).toList ++ ':' :: cs) =
      match parseValue fuel cs with
      | none => none
      | some (v, rest) =>
        match skipBlanks rest with
        | '}' :: rest => some ([(pieces, v)], rest)
        | ',' :: rest =>
          (parseFields fuel rest).map fun (fields, rest) => ((pieces, v) :: fields, rest)
        | _ => none := by
  obtain ⟨pieces, htext, hbody⟩ := stringBody?_quote key
  refine ⟨pieces, htext, fun fuel cs => ?_⟩
  rw [quote_append, parseFields, skipBlanks_cons rfl]
  split
  · rename_i rest heq
    obtain rfl := (List.cons.inj heq).2
    rw [hbody]
    dsimp only
    rw [skipBlanks_cons rfl]
    rfl
  · rename_i hquote
    exact absurd rfl (hquote _)

/-- A key, a colon and a value in front of the closing brace are the last field, -/
theorem Reads.lastField (h : Reads fuel depth cs v ('}' :: rest)) (key : String) :
    ReadsFields (fuel + 1) depth ((quote key).toList ++ ':' :: cs) [(key, v)] rest := by
  obtain ⟨tree, r, hparse, hrest, hvalue⟩ := h
  obtain ⟨pieces, hkey, hfield⟩ := parseFields_key key
  refine ⟨[(pieces, tree)], ?_, ?_⟩
  · rw [hfield, hparse]
    dsimp only
    rw [hrest, skipBlanks_cons rfl]
    rfl
  · simp [fields?, hkey, hvalue]

/-- and in front of a comma they are followed by the fields behind it. -/
theorem Reads.nextField (h : Reads fuel depth cs v (',' :: cs')) {fs : List (String × Json)}
    (hfields : ReadsFields fuel depth cs' fs rest) (key : String) :
    ReadsFields (fuel + 1) depth ((quote key).toList ++ ':' :: cs) ((key, v) :: fs) rest := by
  obtain ⟨tree, r, hparse, hrest, hvalue⟩ := h
  obtain ⟨trees, hparses, hvalues⟩ := hfields
  obtain ⟨pieces, hkey, hfield⟩ := parseFields_key key
  refine ⟨(pieces, tree) :: trees, ?_, ?_⟩
  · rw [hfield, hparse]
    dsimp only
    rw [hrest, skipBlanks_cons rfl]
    simp [hparses]
  · simp [fields?, hkey, hvalue, hvalues]

theorem ReadsFields.object {fs : List (String × Json)}
    (h : ReadsFields fuel (depth + 1) cs fs rest) :
    Reads (fuel + 1) (depth + 2) ('{' :: cs) (.object fs) rest := by
  obtain ⟨trees, hparses, hvalues⟩ := h
  refine ⟨.object trees, rest, parseValue_object hparses, rfl, ?_⟩
  rw [value?, if_neg (by omega)]
  simp [hvalues]

end Syntax

/-! ## What is printed

The printed text as a list of characters, with one equation for each form of it. -/

theorem toList_array (items : List Json) :
    (text (.array items)).toList = '[' :: ((itemsText items).toList ++ [']']) := by
  simp [text]

theorem toList_items (v w : Json) (items : List Json) :
    (itemsText (v :: w :: items)).toList =
      v.text.toList ++ ',' :: (itemsText (w :: items)).toList := by
  simp [itemsText]

theorem toList_object (fields : List (String × Json)) :
    (text (.object fields)).toList = '{' :: ((fieldsText fields).toList ++ ['}']) := by
  simp [text]

theorem toList_field (key : String) (v : Json) :
    (fieldsText [(key, v)]).toList = (quote key).toList ++ ':' :: v.text.toList := by
  simp [fieldsText]

theorem toList_fields (key : String) (v : Json) (field : String × Json)
    (fields : List (String × Json)) :
    (fieldsText ((key, v) :: field :: fields)).toList =
      (quote key).toList ++
        ':' :: (v.text.toList ++ ',' :: (fieldsText (field :: fields)).toList) := by
  simp [fieldsText]

open Syntax

variable {rest : List Char}

/-- The tree of a document is the tree at its front, with but blanks behind it. -/
theorem Syntax.parse?_eq_some_iff {source : String} {tree : Syntax} :
    Syntax.parse? source = some tree ↔ ∃ r,
      parseValue (source.toList.length + 1) source.toList = some (tree, r) ∧
        skipBlanks r = [] := by
  rw [Syntax.parse?]
  cases parseValue (source.toList.length + 1) source.toList with
  | none => simp
  | some read =>
    obtain ⟨found, r⟩ := read
    simp [and_assoc, and_comm]

/-- Only the tree of a number denotes a number. -/
theorem Syntax.eq_number_of_value? {depth : Nat} {tree : Syntax} {n : Number}
    (h : tree.value? depth = some (.number n)) : ∃ t, tree = .number t := by
  cases tree with
  | number t => exact ⟨t, rfl⟩
  | null | bool => cases h
  | string pieces =>
    obtain ⟨_, -, heq⟩ := Option.map_eq_some_iff.mp h
    cases heq
  | array items | object fields =>
    rw [value?] at h
    split at h
    · cases h
    · obtain ⟨_, -, heq⟩ := Option.map_eq_some_iff.mp h
      cases heq

/-- A number that is read back from its own text is read back with more text behind it. That text
was the whole document, so it was read as the number up to its last character but for blanks. -/
theorem Number.ReadsBack.reads {n : Number} (h : n.ReadsBack) (hrest : EndsNumber rest)
    (fuel depth : Nat) :
    Reads (fuel + 1) depth (n.text.toList ++ rest) (.number n) rest := by
  obtain ⟨tree, hdocument, hvalue⟩ := Option.bind_eq_some_iff.mp h
  obtain ⟨r, hparse, hblank⟩ := parse?_eq_some_iff.mp hdocument
  obtain ⟨t, rfl⟩ := eq_number_of_value? hvalue
  have hnumber := parseValue_eq_number hparse
  obtain ⟨c, tail, hcs, hc⟩ := number?_starts hnumber
  have hskip : skipBlanks (n.text.toList ++ rest) = skipBlanks n.text.toList ++ rest :=
    skipBlanks_append _ _ (by rw [hcs]; exact nofun)
  have hstarts : skipBlanks (n.text.toList ++ rest) = c :: (tail ++ rest) := by
    rw [hskip, hcs, List.cons_append]
  refine ⟨.number t, r ++ rest, ?_, skipBlanks_append_of_nil hblank rest, hvalue⟩
  rw [parseValue_number hstarts hc, hskip, number?_append hnumber hrest]
  rfl

/-! ## Whole values

The induction is on the value, mutual with its items and fields as the printer is. Fuel is
bounded by the length of the text, of which every level takes at least one character. -/

/-- What follows a number inside of an array or an object goes on with no number. -/
theorem endsNumber_cons {c : Char} (h : c ∈ [',', ']', '}']) (cs : List Char) :
    EndsNumber (c :: cs) := by
  have hseparators : ∀ c ∈ [',', ']', '}'],
      c.isDigit = false ∧ c ≠ '.' ∧ c ≠ 'e' ∧ c ≠ 'E' := by simp
  intro c' hc'
  obtain rfl := Option.some.inj hc'
  exact hseparators c h

mutual

/-- **A printed value is read back**, whatever follows it. -/
theorem reads_text (fuel depth : Nat) (v : Json) (rest : List Char)
    (hnumbers : ∀ n ∈ v.numbers, n.ReadsBack) (hdepth : v.nesting < depth)
    (hfuel : v.text.toList.length < fuel) (hrest : EndsNumber rest) :
    Reads fuel depth (v.text.toList ++ rest) v rest := by
  obtain ⟨fuel, rfl⟩ := Nat.exists_eq_add_one_of_ne_zero (Nat.ne_zero_of_lt hfuel)
  cases v with
  | null => exact ⟨.null, rest, rfl, rfl, rfl⟩
  | bool b => cases b <;> exact ⟨.bool _, rest, rfl, rfl, rfl⟩
  | number n => exact (hnumbers n List.mem_cons_self).reads hrest fuel depth
  | string s => exact reads_string s rest
  | array items =>
    rw [nesting] at hdepth
    obtain ⟨depth, rfl⟩ : ∃ below, depth = below + 2 := ⟨depth - 2, by omega⟩
    rw [toList_array] at hfuel ⊢
    simp only [List.length_cons, List.length_append, List.length_nil] at hfuel
    cases items with
    | nil => exact ⟨.array [], rest, rfl, rfl, rfl⟩
    | cons v items =>
      have hitems := reads_itemsText fuel (depth + 1) (v :: items) rest nofun hnumbers
        (by omega) (by omega)
      simpa using hitems.array
  | object fields =>
    rw [nesting] at hdepth
    obtain ⟨depth, rfl⟩ : ∃ below, depth = below + 2 := ⟨depth - 2, by omega⟩
    rw [toList_object] at hfuel ⊢
    simp only [List.length_cons, List.length_append, List.length_nil] at hfuel
    cases fields with
    | nil => exact ⟨.object [], rest, rfl, rfl, rfl⟩
    | cons field fields =>
      have hfields := reads_fieldsText fuel (depth + 1) (field :: fields) rest nofun hnumbers
        (by omega) (by omega)
      simpa using hfields.object

/-- The items of an array. -/
theorem reads_itemsText (fuel depth : Nat) (items : List Json) (rest : List Char)
    (hne : items ≠ []) (hnumbers : ∀ n ∈ numbersOfItems items, n.ReadsBack)
    (hdepth : nestingItems items < depth) (hfuel : (itemsText items).toList.length + 1 < fuel) :
    ReadsItems fuel depth ((itemsText items).toList ++ ']' :: rest) items rest := by
  obtain ⟨fuel, rfl⟩ := Nat.exists_eq_add_one_of_ne_zero (Nat.ne_zero_of_lt hfuel)
  cases items with
  | nil => exact absurd rfl hne
  | cons v items =>
    rw [nestingItems, Nat.max_lt] at hdepth
    rw [numbersOfItems, List.forall_mem_append] at hnumbers
    cases items with
    | nil =>
      rw [itemsText] at hfuel ⊢
      exact (reads_text fuel depth v _ hnumbers.1 hdepth.1 (by omega)
        (endsNumber_cons (by decide) rest)).lastItem
    | cons w items =>
      rw [toList_items] at hfuel ⊢
      simp only [List.length_cons, List.length_append] at hfuel
      rw [List.append_assoc, List.cons_append]
      have hitems := reads_itemsText fuel depth (w :: items) rest nofun hnumbers.2 hdepth.2
        (by omega)
      exact (reads_text fuel depth v _ hnumbers.1 hdepth.1 (by omega)
        (endsNumber_cons (by decide) _)).nextItem hitems

/-- The fields of an object. -/
theorem reads_fieldsText (fuel depth : Nat) (fields : List (String × Json)) (rest : List Char)
    (hne : fields ≠ []) (hnumbers : ∀ n ∈ numbersOfFields fields, n.ReadsBack)
    (hdepth : nestingFields fields < depth) (hfuel : (fieldsText fields).toList.length + 1 < fuel) :
    ReadsFields fuel depth ((fieldsText fields).toList ++ '}' :: rest) fields rest := by
  obtain ⟨fuel, rfl⟩ := Nat.exists_eq_add_one_of_ne_zero (Nat.ne_zero_of_lt hfuel)
  match fields with
  | [] => exact absurd rfl hne
  | (key, v) :: fields =>
    rw [nestingFields, Nat.max_lt] at hdepth
    rw [numbersOfFields, List.forall_mem_append] at hnumbers
    cases fields with
    | nil =>
      rw [toList_field] at hfuel ⊢
      simp only [List.length_cons, List.length_append] at hfuel
      rw [List.append_assoc, List.cons_append]
      exact (reads_text fuel depth v _ hnumbers.1 hdepth.1 (by omega)
        (endsNumber_cons (by decide) rest)).lastField key
    | cons field fields =>
      rw [toList_fields] at hfuel ⊢
      simp only [List.length_cons, List.length_append] at hfuel
      rw [List.append_assoc, List.cons_append, List.append_assoc, List.cons_append]
      have hfields := reads_fieldsText fuel depth (field :: fields) rest nofun hnumbers.2 hdepth.2
        (by omega)
      exact (reads_text fuel depth v _ hnumbers.1 hdepth.1 (by omega)
        (endsNumber_cons (by decide) _)).nextField hfields key

end

/-- **Round trip.** A value whose numbers read back and whose nesting the reader can follow is read
back from its compact text. -/
theorem parse?_text {v : Json} (hnumbers : ∀ n ∈ v.numbers, n.ReadsBack)
    (hnesting : v.nesting < depthLimit) : parse? v.text = some v := by
  have hreads := reads_text (v.text.toList.length + 1) depthLimit v [] hnumbers hnesting
    (Nat.lt_succ_self _) EndsNumber.nil
  rw [List.append_nil] at hreads
  obtain ⟨tree, r, hparse, hrest, hvalue⟩ := hreads
  rw [parse?, parse?_eq_some_iff.mpr ⟨r, hparse, hrest⟩]
  exact hvalue

end StreamingTemplate.Json
