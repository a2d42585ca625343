import AfterAction.Proofs.Json.Tokens

/-!
A text reads back as the value it was written from, on one line or indented. The two writers differ
in their blanks only, so they are one spelling with the blanks as a parameter; and the scanner
passes over blanks wherever that spelling may put any. Floats are left out: their text is the
shortest decimal, which a scan may read one place off.
-/

namespace AfterAction.Json

/-- The four blanks that may stand between tokens. -/
def isSpace (c : Char) : Bool := c == ' ' || c == '\t' || c == '\n' || c == '\r'

theorem isSpace_iff {c : Char} :
    isSpace c = true ↔ c = ' ' ∨ c = '\t' ∨ c = '\n' ∨ c = '\r' := by
  simp [isSpace, or_assoc]

/-- The blanks of a writer: in front of an item, a member or a closing bracket at some level, and
behind a colon. -/
structure Spacing where
  gap : Nat → List Char
  colon : List Char
  gap_spaces : ∀ level, ∀ c ∈ gap level, isSpace c = true
  colon_spaces : ∀ c ∈ colon, isSpace c = true

namespace Spacing

def oneLine : Spacing where
  gap _ := []
  colon := []
  gap_spaces := by simp
  colon_spaces := by simp

def indented : Spacing where
  gap level := '\n' :: List.replicate (2 * level) ' '
  colon := [' ']
  gap_spaces := by
    intro level c hc
    rcases List.mem_cons.mp hc with rfl | hspace
    · rfl
    · rw [List.eq_of_mem_replicate hspace]
      rfl
  colon_spaces := by simp [isSpace]

end Spacing

def spellString (s : String) : List Char := '"' :: (s.toList.flatMap escapeChar ++ ['"'])

mutual

/-- The text of a value at some level, with the blanks of a writer. -/
def spell (blanks : Spacing) (level : Nat) : Json → List Char
  | .null => ['n', 'u', 'l', 'l']
  | .bool true => ['t', 'r', 'u', 'e']
  | .bool false => ['f', 'a', 'l', 's', 'e']
  | .number n => n.text.toList
  | .string s => spellString s
  | .array [] => ['[', ']']
  | .array (v :: rest) =>
    '[' :: (spellItems blanks (level + 1) (v :: rest) ++ (blanks.gap level ++ [']']))
  | .object [] => ['\x7b', '\x7d']
  | .object (m :: rest) =>
    '\x7b' :: (spellMembers blanks (level + 1) (m :: rest) ++ (blanks.gap level ++ ['\x7d']))
  | .flaw _ => ['n', 'u', 'l', 'l']

def spellItems (blanks : Spacing) (level : Nat) : List Json → List Char
  | [] => []
  | [v] => blanks.gap level ++ spell blanks level v
  | v :: rest =>
    blanks.gap level ++ (spell blanks level v ++ ',' :: spellItems blanks level rest)

def spellMembers (blanks : Spacing) (level : Nat) : List (String × Json) → List Char
  | [] => []
  | [(key, v)] =>
    blanks.gap level ++ (spellString key ++ ':' :: (blanks.colon ++ spell blanks level v))
  | (key, v) :: rest =>
    blanks.gap level ++ (spellString key ++ ':' :: (blanks.colon ++
      (spell blanks level v ++ ',' :: spellMembers blanks level rest)))

end

theorem toList_quoted (s : String) : (quoted s).toList = spellString s := by
  simp [quoted, spellString]

theorem toList_lineBreak (level : Nat) :
    (lineBreak level).toList = Spacing.indented.gap level := by
  simp [lineBreak, Spacing.indented]

mutual

theorem toList_compact (level : Nat) : ∀ v : Json, v.compact.toList = spell .oneLine level v
  | .null | .bool true | .bool false | .flaw _ => by simp [compact, spell]
  | .number n => by simp [compact, spell]
  | .string s => by simp [compact, spell, toList_quoted]
  | .array [] => by simp [compact, compactItems, spell]
  | .array (v :: rest) => by
    simp [compact, spell, toList_compactItems (level + 1) (v :: rest), Spacing.oneLine]
  | .object [] => by simp [compact, compactMembers, spell]
  | .object (m :: rest) => by
    simp [compact, spell, toList_compactMembers (level + 1) (m :: rest), Spacing.oneLine]

theorem toList_compactItems (level : Nat) :
    ∀ items : List Json, (compactItems items).toList = spellItems .oneLine level items
  | [] => by simp [compactItems, spellItems]
  | [v] => by simp [compactItems, spellItems, toList_compact level v, Spacing.oneLine]
  | v :: w :: rest => by
    simp [compactItems, spellItems, toList_compact level v,
      toList_compactItems level (w :: rest), Spacing.oneLine]

theorem toList_compactMembers (level : Nat) :
    ∀ members : List (String × Json),
      (compactMembers members).toList = spellMembers .oneLine level members
  | [] => by simp [compactMembers, spellMembers]
  | [(key, v)] => by
    simp [compactMembers, spellMembers, toList_quoted, toList_compact level v, Spacing.oneLine]
  | (key, v) :: m :: rest => by
    simp [compactMembers, spellMembers, toList_quoted, toList_compact level v,
      toList_compactMembers level (m :: rest), Spacing.oneLine]

end

mutual

theorem toList_pretty (level : Nat) : ∀ v : Json, (v.pretty level).toList = spell .indented level v
  | .null | .bool true | .bool false | .flaw _ => by simp [pretty, spell]
  | .number n => by simp [pretty, spell]
  | .string s => by simp [pretty, spell, toList_quoted]
  | .array [] => by simp [pretty, spell]
  | .array (v :: rest) => by
    simp [pretty, spell, toList_prettyItems (level + 1) (v :: rest), toList_lineBreak]
  | .object [] => by simp [pretty, spell]
  | .object (m :: rest) => by
    simp [pretty, spell, toList_prettyMembers (level + 1) (m :: rest), toList_lineBreak]

theorem toList_prettyItems (level : Nat) :
    ∀ items : List Json, (prettyItems level items).toList = spellItems .indented level items
  | [] => by simp [prettyItems, spellItems]
  | [v] => by simp [prettyItems, spellItems, toList_pretty level v, toList_lineBreak]
  | v :: w :: rest => by
    simp [prettyItems, spellItems, toList_pretty level v, toList_prettyItems level (w :: rest),
      toList_lineBreak]

theorem toList_prettyMembers (level : Nat) :
    ∀ members : List (String × Json),
      (prettyMembers level members).toList = spellMembers .indented level members
  | [] => by simp [prettyMembers, spellMembers]
  | [(key, v)] => by
    simp [prettyMembers, spellMembers, toList_quoted, toList_pretty level v, toList_lineBreak,
      Spacing.indented]
  | (key, v) :: m :: rest => by
    simp [prettyMembers, spellMembers, toList_quoted, toList_pretty level v,
      toList_prettyMembers level (m :: rest), toList_lineBreak, Spacing.indented]

end

mutual

/-- Without flaws and floats, every whole number within 64 bits. -/
def sound : Json → Bool
  | .null | .bool _ | .string _ => true
  | .number (.int n) => fits n
  | .number (.real _) | .flaw _ => false
  | .array items => soundItems items
  | .object members => soundMembers members

def soundItems : List Json → Bool
  | [] => true
  | v :: rest => sound v && soundItems rest

def soundMembers : List (String × Json) → Bool
  | [] => true
  | (_, v) :: rest => sound v && soundMembers rest

end

/-! ## Blanks are passed over -/

theorem skipBlanks_append {gap : List Char} (h : ∀ c ∈ gap, isSpace c = true) (rest : List Char) :
    skipBlanks (gap ++ rest) = skipBlanks rest :=
  List.dropWhile_append_of_pos h

theorem skipBlanks_cons {c : Char} (h : isSpace c = false) (rest : List Char) :
    skipBlanks (c :: rest) = c :: rest :=
  List.dropWhile_cons_of_neg (by simpa [isSpace] using h)

theorem skipBlanks_skipBlanks (cs : List Char) : skipBlanks (skipBlanks cs) = skipBlanks cs := by
  induction cs with
  | nil => rfl
  | cons c cs ih =>
    by_cases hc : isSpace c = true
    · have hskip : skipBlanks (c :: cs) = skipBlanks cs :=
        @skipBlanks_append [c] (by simpa using hc) cs
      rw [hskip, ih]
    · rw [skipBlanks_cons (by simpa using hc), skipBlanks_cons (by simpa using hc)]

theorem scanValue_skipBlanks (fuel : Nat) (cs : List Char) :
    scanValue fuel (skipBlanks cs) = scanValue fuel cs := by
  cases fuel with
  | zero => rfl
  | succ fuel => simp only [scanValue, skipBlanks_skipBlanks]

theorem scanItems_skipBlanks (fuel : Nat) (cs : List Char) :
    scanItems fuel (skipBlanks cs) = scanItems fuel cs := by
  cases fuel with
  | zero => rfl
  | succ fuel => simp only [scanItems, scanValue_skipBlanks]

theorem scanMembers_skipBlanks (fuel : Nat) (cs : List Char) :
    scanMembers fuel (skipBlanks cs) = scanMembers fuel cs := by
  cases fuel with
  | zero => rfl
  | succ fuel => simp only [scanMembers, skipBlanks_skipBlanks]

theorem endsNumber_cons {c : Char} {rest : List Char}
    (h : c.isDigit = false ∧ c ≠ '.' ∧ c ≠ 'e' ∧ c ≠ 'E') : EndsNumber (c :: rest) := by
  rintro d hd
  cases hd
  exact h

theorem endsNumber_gap {gap : List Char} (h : ∀ c ∈ gap, isSpace c = true) {rest : List Char}
    (hrest : EndsNumber rest) : EndsNumber (gap ++ rest) := by
  cases gap with
  | nil => exact hrest
  | cons c gap =>
    apply endsNumber_cons
    rcases isSpace_iff.mp (h c (by simp)) with rfl | rfl | rfl | rfl <;> decide

/-! ## What a scan finds behind the first character -/

theorem scanValue_bracket {fuel : Nat} {cs : List Char}
    (h : (skipBlanks cs).head? ≠ some ']') :
    scanValue (fuel + 1) ('[' :: cs) = (.array (scanItems fuel cs).1, (scanItems fuel cs).2) := by
  rw [← scanItems_skipBlanks]
  simp only [scanValue, skipBlanks_cons (show isSpace '[' = false from rfl)]
  split
  · rename_i heq
    simp [heq] at h
  · rfl

theorem scanValue_brace {fuel : Nat} {cs : List Char}
    (h : (skipBlanks cs).head? ≠ some '\x7d') :
    scanValue (fuel + 1) ('\x7b' :: cs) =
      (.object (scanMembers fuel cs).1, (scanMembers fuel cs).2) := by
  rw [← scanMembers_skipBlanks]
  simp only [scanValue, skipBlanks_cons (show isSpace '\x7b' = false from rfl)]
  split
  · rename_i heq
    simp [heq] at h
  · rfl

theorem scanValue_string (fuel : Nat) (s : String) (rest : List Char) :
    scanValue (fuel + 1) (spellString s ++ rest) = (.string s, some rest) := by
  have htoken := stringToken_quoted s.toList rest
  simp only [spellString, List.cons_append, List.append_assoc, List.nil_append, scanValue,
    skipBlanks_cons (show isSpace '"' = false from rfl), htoken, String.ofList_toList]

theorem isSpace_of_number {c : Char} (h : c = '-' ∨ c.isDigit = true) : isSpace c = false := by
  rw [← Bool.not_eq_true]
  intro hc
  rcases isSpace_iff.mp hc with rfl | rfl | rfl | rfl <;> simp at h

theorem scanValue_number (fuel : Nat) {n : Int} (hn : fits n = true) {rest : List Char}
    (hrest : EndsNumber rest) :
    scanValue (fuel + 1) (wholeText n ++ rest) = (.number (.int n), some rest) := by
  have hword := wordOrNumber_wholeText hn hrest
  obtain ⟨c, front, hfront, hc⟩ := wholeText_eq_cons n
  have hblank := isSpace_of_number hc
  rw [hfront, List.cons_append] at hword ⊢
  simp only [scanValue, skipBlanks_cons hblank]
  split <;> simp_all

theorem scanValue_gap {gap : List Char} (h : ∀ c ∈ gap, isSpace c = true) (fuel : Nat)
    (cs : List Char) : scanValue fuel (gap ++ cs) = scanValue fuel cs := by
  rw [← scanValue_skipBlanks, skipBlanks_append h, scanValue_skipBlanks]

theorem scanItems_more {fuel : Nat} {cs rest : List Char} {v : Json}
    (h : scanValue fuel cs = (v, some (',' :: rest))) :
    scanItems (fuel + 1) cs = (v :: (scanItems fuel rest).1, (scanItems fuel rest).2) := by
  simp only [scanItems, h, skipBlanks_cons (show isSpace ',' = false from rfl)]

theorem scanItems_last {fuel : Nat} {cs gap rest : List Char} {v : Json}
    (hgap : ∀ c ∈ gap, isSpace c = true)
    (h : scanValue fuel cs = (v, some (gap ++ ']' :: rest))) :
    scanItems (fuel + 1) cs = ([v], some rest) := by
  simp only [scanItems, h, skipBlanks_append hgap, skipBlanks_cons (show isSpace ']' = false from rfl)]

theorem scanMembers_more {fuel : Nat} {key : String} {gap cs rest : List Char} {v : Json}
    (hgap : ∀ c ∈ gap, isSpace c = true)
    (h : scanValue fuel cs = (v, some (',' :: rest))) :
    scanMembers (fuel + 1) (gap ++ (spellString key ++ ':' :: cs)) =
      ((key, v) :: (scanMembers fuel rest).1, (scanMembers fuel rest).2) := by
  have htoken := stringToken_quoted key.toList (':' :: cs)
  simp only [scanMembers, skipBlanks_append hgap, spellString, List.cons_append, List.append_assoc,
    List.nil_append, skipBlanks_cons (show isSpace '"' = false from rfl), htoken,
    skipBlanks_cons (show isSpace ':' = false from rfl), h, Option.map_some,
    skipBlanks_cons (show isSpace ',' = false from rfl), String.ofList_toList, if_true]

theorem scanMembers_last {fuel : Nat} {key : String} {gap cs closing rest : List Char} {v : Json}
    (hgap : ∀ c ∈ gap, isSpace c = true) (hclosing : ∀ c ∈ closing, isSpace c = true)
    (h : scanValue fuel cs = (v, some (closing ++ '\x7d' :: rest))) :
    scanMembers (fuel + 1) (gap ++ (spellString key ++ ':' :: cs)) = ([(key, v)], some rest) := by
  have htoken := stringToken_quoted key.toList (':' :: cs)
  simp only [scanMembers, skipBlanks_append hgap, spellString, List.cons_append, List.append_assoc,
    List.nil_append, skipBlanks_cons (show isSpace '"' = false from rfl), htoken,
    skipBlanks_cons (show isSpace ':' = false from rfl), h, Option.map_some,
    skipBlanks_append hclosing, skipBlanks_cons (show isSpace '\x7d' = false from rfl),
    String.ofList_toList, if_true]

/-- No value begins like the end of a list. -/
theorem head?_skipBlanks_spell (blanks : Spacing) (level : Nat) (v : Json) (hv : v.sound = true)
    (rest : List Char) : (skipBlanks (spell blanks level v ++ rest)).head? ≠ some ']' := by
  match v with
  | .null | .bool true | .bool false => simp [spell, skipBlanks_cons, isSpace]
  | .number (.int n) =>
    obtain ⟨c, front, hfront, hc⟩ := wholeText_eq_cons n
    have hblank := isSpace_of_number hc
    rw [spell, toList_text_int, hfront, List.cons_append, skipBlanks_cons hblank, List.head?_cons]
    rintro heq
    cases heq
    simp at hc
  | .string s => simp [spell, spellString, skipBlanks_cons, isSpace]
  | .array [] | .array (_ :: _) | .object [] | .object (_ :: _) =>
    simp [spell, skipBlanks_cons, isSpace]

theorem length_spell_pos (blanks : Spacing) (level : Nat) (v : Json) (hv : v.sound = true) :
    0 < (spell blanks level v).length := by
  match v with
  | .null | .bool true | .bool false => simp [spell]
  | .number (.int n) =>
    obtain ⟨c, front, hfront, -⟩ := wholeText_eq_cons n
    simp [spell, toList_text_int, hfront]
  | .string s => simp [spell, spellString]
  | .array [] | .array (_ :: _) | .object [] | .object (_ :: _) => simp [spell]

theorem head?_skipBlanks_items (blanks : Spacing) (level : Nat) (v : Json) (items : List Json)
    (hv : v.sound = true) (rest : List Char) :
    (skipBlanks (spellItems blanks level (v :: items) ++ rest)).head? ≠ some ']' := by
  cases items with
  | nil =>
    rw [spellItems, List.append_assoc, skipBlanks_append (blanks.gap_spaces level)]
    exact head?_skipBlanks_spell blanks level v hv rest
  | cons w items =>
    simp only [spellItems, List.append_assoc, skipBlanks_append (blanks.gap_spaces level)]
    exact head?_skipBlanks_spell blanks level v hv _

theorem head?_skipBlanks_members (blanks : Spacing) (level : Nat) (m : String × Json)
    (members : List (String × Json)) (rest : List Char) :
    (skipBlanks (spellMembers blanks level (m :: members) ++ rest)).head? ≠ some '\x7d' := by
  cases members with
  | nil =>
    simp [spellMembers, skipBlanks_append (blanks.gap_spaces level), spellString, skipBlanks_cons,
      isSpace]
  | cons w members =>
    simp [spellMembers, skipBlanks_append (blanks.gap_spaces level), spellString, skipBlanks_cons,
      isSpace]

mutual

/-- The induction is on the value. A container takes one step of fuel and two characters, an item
or a member one step and the comma or the bracket behind it, so twice the length is enough. -/
theorem scanValue_spell (blanks : Spacing) :
    ∀ (v : Json) (level fuel : Nat) (rest : List Char), v.sound = true → EndsNumber rest →
      2 * (spell blanks level v).length ≤ fuel + 2 →
      scanValue (fuel + 1) (spell blanks level v ++ rest) = (v, some rest)
  | .null, _, _, _, _, _, _ | .bool true, _, _, _, _, _, _ | .bool false, _, _, _, _, _, _ => rfl
  | .number (.int n), level, fuel, rest, hv, hrest, _ => by
    rw [spell, toList_text_int, scanValue_number fuel hv hrest]
  | .string s, level, fuel, rest, _, _, _ => by
    rw [spell, scanValue_string]
  | .array [], _, _, _, _, _, _ | .object [], _, _, _, _, _, _ => rfl
  | .array (v :: items), level, fuel, rest, hv, _, hfuel => by
    have hroom : 2 * (spellItems blanks (level + 1) (v :: items)).length ≤ fuel := by
      simp only [spell, List.length_cons, List.length_append] at hfuel
      omega
    have hsound : v.sound = true := by
      simp only [sound, soundItems, Bool.and_eq_true] at hv
      exact hv.1
    have hitems := scanItems_spell blanks (v :: items) (level + 1) fuel (blanks.gap level) rest
      (List.cons_ne_nil v items) hv (blanks.gap_spaces level) hroom
    have hopen := head?_skipBlanks_items blanks (level + 1) v items hsound
      (blanks.gap level ++ ']' :: rest)
    simp only [spell, List.cons_append, List.append_assoc, List.nil_append]
    rw [scanValue_bracket hopen, hitems]
  | .object (m :: members), level, fuel, rest, hv, _, hfuel => by
    have hroom : 2 * (spellMembers blanks (level + 1) (m :: members)).length ≤ fuel := by
      simp only [spell, List.length_cons, List.length_append] at hfuel
      omega
    have hmembers := scanMembers_spell blanks (m :: members) (level + 1) fuel (blanks.gap level)
      rest (List.cons_ne_nil m members) hv (blanks.gap_spaces level) hroom
    have hopen := head?_skipBlanks_members blanks (level + 1) m members
      (blanks.gap level ++ '\x7d' :: rest)
    simp only [spell, List.cons_append, List.append_assoc, List.nil_append]
    rw [scanValue_brace hopen, hmembers]

theorem scanItems_spell (blanks : Spacing) :
    ∀ (items : List Json) (level fuel : Nat) (closing rest : List Char), items ≠ [] →
      soundItems items = true → (∀ c ∈ closing, isSpace c = true) →
      2 * (spellItems blanks level items).length ≤ fuel →
      scanItems fuel (spellItems blanks level items ++ (closing ++ ']' :: rest)) =
        (items, some rest)
  | [], _, _, _, _, hne, _, _, _ => absurd rfl hne
  | [v], level, fuel, closing, rest, _, hv, hclosing, hfuel => by
    have hsound : v.sound = true := by simpa [soundItems] using hv
    have hpos := length_spell_pos blanks level v hsound
    simp only [spellItems, List.length_append] at hfuel
    obtain ⟨fuel, rfl⟩ : ∃ k, fuel = k + 2 := ⟨fuel - 2, by omega⟩
    have hends : EndsNumber (closing ++ ']' :: rest) :=
      endsNumber_gap hclosing (endsNumber_cons (by decide))
    have hvalue := scanValue_spell blanks v level fuel _ hsound hends (by omega)
    rw [← scanValue_gap (blanks.gap_spaces level), ← List.append_assoc] at hvalue
    exact scanItems_last hclosing hvalue
  | v :: w :: items, level, fuel, closing, rest, _, hv, hclosing, hfuel => by
    obtain ⟨hsound, hrest⟩ : v.sound = true ∧ soundItems (w :: items) = true := by
      simpa only [soundItems, Bool.and_eq_true] using hv
    have hpos := length_spell_pos blanks level v hsound
    simp only [spellItems, List.length_append, List.length_cons] at hfuel
    obtain ⟨fuel, rfl⟩ : ∃ k, fuel = k + 2 := ⟨fuel - 2, by omega⟩
    have hvalue := scanValue_spell blanks v level fuel
      (',' :: (spellItems blanks level (w :: items) ++ (closing ++ ']' :: rest))) hsound
      (endsNumber_cons (by decide)) (by omega)
    have hitems := scanItems_spell blanks (w :: items) level (fuel + 1) closing rest
      (List.cons_ne_nil w items) hrest hclosing (by omega)
    rw [← scanValue_gap (blanks.gap_spaces level)] at hvalue
    simp only [spellItems, List.append_assoc, List.cons_append]
    rw [scanItems_more hvalue, hitems]

theorem scanMembers_spell (blanks : Spacing) :
    ∀ (members : List (String × Json)) (level fuel : Nat) (closing rest : List Char),
      members ≠ [] → soundMembers members = true → (∀ c ∈ closing, isSpace c = true) →
      2 * (spellMembers blanks level members).length ≤ fuel →
      scanMembers fuel (spellMembers blanks level members ++ (closing ++ '\x7d' :: rest)) =
        (members, some rest)
  | [], _, _, _, _, hne, _, _, _ => absurd rfl hne
  | [(key, v)], level, fuel, closing, rest, _, hv, hclosing, hfuel => by
    have hsound : v.sound = true := by simpa [soundMembers] using hv
    have hpos := length_spell_pos blanks level v hsound
    simp only [spellMembers, List.length_append, List.length_cons] at hfuel
    obtain ⟨fuel, rfl⟩ : ∃ k, fuel = k + 2 := ⟨fuel - 2, by omega⟩
    have hends : EndsNumber (closing ++ '\x7d' :: rest) :=
      endsNumber_gap hclosing (endsNumber_cons (by decide))
    have hvalue := scanValue_spell blanks v level fuel _ hsound hends (by omega)
    rw [← scanValue_gap blanks.colon_spaces] at hvalue
    simp only [spellMembers, List.append_assoc, List.cons_append]
    exact scanMembers_last (blanks.gap_spaces level) hclosing hvalue
  | (key, v) :: w :: members, level, fuel, closing, rest, _, hv, hclosing, hfuel => by
    obtain ⟨hsound, hrest⟩ : v.sound = true ∧ soundMembers (w :: members) = true := by
      simpa only [soundMembers, Bool.and_eq_true] using hv
    have hpos := length_spell_pos blanks level v hsound
    simp only [spellMembers, List.length_append, List.length_cons] at hfuel
    obtain ⟨fuel, rfl⟩ : ∃ k, fuel = k + 2 := ⟨fuel - 2, by omega⟩
    have hvalue := scanValue_spell blanks v level fuel
      (',' :: (spellMembers blanks level (w :: members) ++ (closing ++ '\x7d' :: rest))) hsound
      (endsNumber_cons (by decide)) (by omega)
    have hmembers := scanMembers_spell blanks (w :: members) level (fuel + 1) closing rest
      (List.cons_ne_nil w members) hrest hclosing (by omega)
    rw [← scanValue_gap blanks.colon_spaces] at hvalue
    simp only [spellMembers, List.append_assoc, List.cons_append]
    rw [scanMembers_more (blanks.gap_spaces level) hvalue, hmembers]

end

theorem scan_of_spell {blanks : Spacing} {level : Nat} {v : Json} {text : String}
    (hv : v.sound = true) (htext : text.toList = spell blanks level v) : scan text = ⟨v, false⟩ := by
  have hvalue := scanValue_spell blanks v level (2 * text.toList.length + 1) [] hv endsNumber_nil
    (by rw [htext]; omega)
  rw [List.append_nil, ← htext] at hvalue
  simp only [scan, hvalue]
  rfl

theorem scan_compact {v : Json} (hv : v.sound = true) : scan v.compact = ⟨v, false⟩ :=
  scan_of_spell hv (toList_compact 0 v)

theorem scan_pretty {v : Json} (hv : v.sound = true) : scan (v.pretty 0) = ⟨v, false⟩ :=
  scan_of_spell hv (toList_pretty 0 v)

end AfterAction.Json
