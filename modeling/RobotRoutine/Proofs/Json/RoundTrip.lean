import RobotRoutine.Json.Printer
import RobotRoutine.Json.Reader
import RobotRoutine.Proofs.Json.Numerals

/-!
# Values printed and read

Every value that is made of texts and of numerals of JSON is read back from what it is printed as.
The text is cut into the tokens of the value at every depth of nesting, whatever stands behind it,
and the tokens lead the reader from the place in front of the value to the place behind it.
-/

namespace RobotRoutine.Json

open Decimal.Numeral

/-- A value in which every string is a text and every number may stand in JSON. -/
inductive IsPrintable : Json → Prop
  | null : IsPrintable .null
  | bool (value : Bool) : IsPrintable (.bool value)
  | number {numeral : Decimal.Numeral} (h : numeral.IsWellFormed) : IsPrintable (.number numeral)
  | text (text : String) : IsPrintable (.ofText text)
  | array {items : List Json} (h : ∀ item ∈ items, IsPrintable item) : IsPrintable (.array items)
  | object {members : List (List Nat × Json)}
      (keys : ∀ m ∈ members, ∃ name, m.1 = codesOf name)
      (values : ∀ m ∈ members, IsPrintable m.2) : IsPrintable (.object members)

mutual

/-- The tokens of a value. -/
def tokensOf : Json → List Token
  | .null => [.null]
  | .bool value => [.bool value]
  | .number numeral => [.number numeral]
  | .string codes => [.string codes]
  | .array [] => [.arrayStart, .arrayEnd]
  | .array (item :: rest) =>
    .arrayStart :: (item.tokensOf ++ tokensOfItems rest ++ [.arrayEnd])
  | .object [] => [.objectStart, .objectEnd]
  | .object ((key, value) :: rest) =>
    .objectStart :: .string key :: .colon ::
      (value.tokensOf ++ tokensOfMembers rest ++ [.objectEnd])

/-- The tokens of the further items of an array. -/
def tokensOfItems : List Json → List Token
  | [] => []
  | item :: rest => .comma :: (item.tokensOf ++ tokensOfItems rest)

/-- The tokens of the further members of an object. -/
def tokensOfMembers : List (List Nat × Json) → List Token
  | [] => []
  | (key, value) :: rest =>
    .comma :: .string key :: .colon :: (value.tokensOf ++ tokensOfMembers rest)

end

/-! ## Strings -/

/-- A string with one more code point in front. -/
def prepend (code : Nat) (literal : List Nat × List Char) : List Nat × List Char :=
  (code :: literal.1, literal.2)

theorem literal?_mark {mark : Char} {code : Nat} (h : escapedMark? mark = some code)
    (rest : List Char) : literal? ('\\' :: mark :: rest) = (literal? rest).map (prepend code) := by
  have hu : mark ≠ 'u' := by
    rintro rfl
    cases h
  rw [literal?]
  · rw [h]
    cases literal? rest <;> rfl
  · intro a b c d rest' hmark
    simp_all

theorem literal?_code {a b c d : Char} {code : Nat} (h : escapedCode? a b c d = some code)
    (rest : List Char) :
    literal? ('\\' :: 'u' :: a :: b :: c :: d :: rest) = (literal? rest).map (prepend code) := by
  rw [literal?, h]
  cases literal? rest <;> rfl

theorem literal?_plain {c : Char} (hquote : c ≠ '"') (hslash : c ≠ '\\') (h : 0x20 ≤ c.toNat)
    (rest : List Char) : literal? (c :: rest) = (literal? rest).map (prepend c.toNat) := by
  rw [literal?]
  · rw [if_neg (by omega)]
    cases literal? rest <;> rfl
  all_goals simp_all

/-- The last two digits of a short hexadecimal escape name the code point. -/
theorem hexEscape_of_lt {code : Nat} (h : code < 0x20) :
    hexEscape code = ['\\', 'u', '0', '0', (code / 16).digitChar, (code % 16).digitChar] ∧
      escapedCode? '0' '0' (code / 16).digitChar (code % 16).digitChar = some code := by
  have : ∀ n < 0x20,
      hexEscape n = ['\\', 'u', '0', '0', (n / 16).digitChar, (n % 16).digitChar] ∧
        escapedCode? '0' '0' (n / 16).digitChar (n % 16).digitChar = some n := by decide
  exact this code h

/-- A character comes back from what it is written as in a string. -/
theorem literal?_escape (c : Char) (rest : List Char) :
    literal? (escape c.toNat ++ rest) = (literal? rest).map (prepend c.toNat) := by
  obtain ⟨hhigh, hlow⟩ := not_isSurrogate_toNat c
  rw [escape]
  split_ifs with hquote hslash hbackspace hfeed hline hreturn htab hcontrol
  · rw [hquote]; exact literal?_mark rfl rest
  · rw [hslash]; exact literal?_mark rfl rest
  · rw [hbackspace]; exact literal?_mark rfl rest
  · rw [hfeed]; exact literal?_mark rfl rest
  · rw [hline]; exact literal?_mark rfl rest
  · rw [hreturn]; exact literal?_mark rfl rest
  · rw [htab]; exact literal?_mark rfl rest
  · obtain ⟨hchars, hcode⟩ := hexEscape_of_lt (show c.toNat < 0x20 by simpa [hhigh, hlow] using hcontrol)
    rw [hchars]
    exact literal?_code hcode rest
  · rw [Char.ofNat_toNat]
    refine literal?_plain ?_ ?_ (by omega) rest
    · rintro rfl
      exact hquote rfl
    · rintro rfl
      exact hslash rfl

theorem literal?_codesOf (text : String) (rest : List Char) :
    literal? ((codesOf text).flatMap escape ++ '"' :: rest) = some (codesOf text, rest) := by
  rw [codesOf]
  induction text.toList with
  | nil => rfl
  | cons c cs ih =>
    rw [List.map_cons, List.flatMap_cons, List.append_assoc, literal?_escape, ih]
    rfl

/-! ## Tokens -/

/-- Text at which a number and a word end. -/
def IsDelimited (text : List Char) : Prop :=
  ∀ c ∈ text.head?, isNumberPart c = false ∧ c.isAlpha = false

theorem tokens?_space {c : Char} (h : isSpace c = true) (rest : List Char) :
    tokens? (c :: rest) = tokens? rest := by
  rw [tokens?, if_pos h]

theorem tokens?_newLine (depth : Nat) (rest : List Char) :
    tokens? (newLine depth ++ rest) = tokens? rest := by
  rw [newLine, List.cons_append, tokens?_space (by rfl)]
  induction 2 * depth with
  | zero => rfl
  | succ n ih => rw [List.replicate_succ, List.cons_append, tokens?_space (by rfl), ih]

theorem tokens?_mark {c : Char} {token : Token} (h : mark? c = some token) (rest : List Char) :
    tokens? (c :: rest) = (tokens? rest).map (token :: ·) := by
  unfold mark? at h
  split at h
  case h_7 => cases h
  all_goals
    cases h
    rw [tokens?]
    rfl

theorem tokens?_string (text : String) (rest : List Char) :
    tokens? (quote (codesOf text) ++ rest) = (tokens? rest).map (.string (codesOf text) :: ·) := by
  have h := literal?_codesOf text rest
  rw [quote, List.append_assoc, List.cons_append, List.singleton_append, tokens?,
    if_neg (by decide), if_pos rfl]
  split
  · rename_i hnone
    rw [h] at hnone
    cases hnone
  · rename_i codes after hsome
    rw [h] at hsome
    cases hsome
    rfl

theorem not_isSpace_of_isAlphanum {c : Char} (h : c.isAlphanum = true) :
    isSpace c = false ∧ c ≠ '"' := by
  simp only [isSpace, Bool.or_eq_false_iff, decide_eq_false_iff_not]
  refine ⟨⟨⟨⟨?_, ?_⟩, ?_⟩, ?_⟩, ?_⟩ <;> rintro rfl <;> exact absurd h (by decide)

theorem tokens?_number {numeral : Decimal.Numeral} (h : numeral.IsWellFormed) {rest : List Char}
    (hrest : IsDelimited rest) :
    tokens? (numeral.toChars numbers.exponentPlus ++ rest) =
      (tokens? rest).map (.number numeral :: ·) := by
  obtain ⟨c, chars, e, hc⟩ := toChars_eq_cons h numbers.exponentPlus
  have hparts : ∀ d ∈ chars, isNumberPart d = true := fun d hd =>
    isNumberPart_of_mem_toChars h numbers.exponentPlus (e ▸ List.mem_cons_of_mem c hd)
  obtain ⟨htake, hdrop⟩ := takeWhile_append hparts fun d hd => (hrest d hd).1
  obtain ⟨hspace, hquote⟩ : isSpace c = false ∧ c ≠ '"' := by
    obtain rfl | hdigit := hc
    · decide
    · exact not_isSpace_of_isAlphanum (by simp [Char.isAlphanum, hdigit])
  rw [e, List.cons_append, tokens?, if_neg (by simp [hspace]), if_neg hquote, if_pos hc, htake,
    hdrop, ← e, numeral?_toChars h]

theorem tokens?_word {c : Char} {chars : List Char} {token : Token}
    (hletter : c.isAlpha = true) (hdigit : c.isDigit = false) (h : ∀ d ∈ chars, d.isAlpha = true)
    (hword : word? (c :: chars) = some token) {rest : List Char} (hrest : IsDelimited rest) :
    tokens? (c :: chars ++ rest) = (tokens? rest).map (token :: ·) := by
  obtain ⟨htake, hdrop⟩ := takeWhile_append h fun d hd => (hrest d hd).2
  obtain ⟨hspace, hquote⟩ := not_isSpace_of_isAlphanum (c := c) (by simp [Char.isAlphanum, hletter])
  have hnumber : ¬ (c = '-' ∨ c.isDigit = true) := by
    rintro (rfl | htrue)
    · exact absurd hletter (by decide)
    · simp [hdigit] at htrue
  rw [List.cons_append, tokens?, if_neg (by simp [hspace]), if_neg hquote, if_neg hnumber,
    if_pos hletter, htake, hdrop, hword]

/-! ## Values in tokens -/

theorem isDelimited_cons {c : Char} (h : isNumberPart c = false ∧ c.isAlpha = false)
    (rest : List Char) : IsDelimited (c :: rest) := by
  intro d hd
  cases hd
  exact h

theorem isDelimited_newLine (depth : Nat) (rest : List Char) :
    IsDelimited (newLine depth ++ rest) :=
  isDelimited_cons (by decide) _

theorem isDelimited_layOutItems (depth : Nat) (items : List Json) {rest : List Char}
    (h : IsDelimited rest) : IsDelimited (layOutItems depth items ++ rest) := by
  cases items with
  | nil => simpa [layOutItems] using h
  | cons item items => exact isDelimited_cons (by decide) _

theorem isDelimited_layOutMembers (depth : Nat) (members : List (List Nat × Json))
    {rest : List Char} (h : IsDelimited rest) :
    IsDelimited (layOutMembers depth members ++ rest) := by
  cases members with
  | nil => simpa [layOutMembers] using h
  | cons m members => exact isDelimited_cons (by decide) _

/-- Whatever stands behind a text, its tokens come first and are these. -/
def IsCutInto (text : List Char) (tokens : List Token) : Prop :=
  ∀ rest, IsDelimited rest → tokens? (text ++ rest) = (tokens? rest).map (tokens ++ ·)

theorem isCutInto_layOutItems {items : List Json}
    (h : ∀ item ∈ items, ∀ depth, IsCutInto (item.layOut depth) item.tokensOf) (depth : Nat) :
    IsCutInto (layOutItems depth items) (tokensOfItems items) := by
  induction items with
  | nil =>
    intro rest hrest
    simp [layOutItems, tokensOfItems]
  | cons item items ih =>
    intro rest hrest
    have hitems := ih (fun i hi => h i (List.mem_cons_of_mem item hi)) rest hrest
    rw [layOutItems, List.append_assoc, List.append_assoc, List.cons_append,
      tokens?_mark (by rfl), tokens?_newLine,
      h item List.mem_cons_self depth _ (isDelimited_layOutItems depth items hrest), hitems, tokensOfItems]
    simp [Option.map_map, Function.comp_def]

theorem isCutInto_layOutMembers {members : List (List Nat × Json)}
    (keys : ∀ m ∈ members, ∃ name, m.1 = codesOf name)
    (h : ∀ m ∈ members, ∀ depth, IsCutInto (m.2.layOut depth) m.2.tokensOf) (depth : Nat) :
    IsCutInto (layOutMembers depth members) (tokensOfMembers members) := by
  induction members with
  | nil =>
    intro rest hrest
    simp [layOutMembers, tokensOfMembers]
  | cons m members ih =>
    intro rest hrest
    obtain ⟨key, value⟩ := m
    obtain ⟨name, rfl⟩ : ∃ name, key = codesOf name := keys _ List.mem_cons_self
    have hmembers := ih (fun m hm => keys m (List.mem_cons_of_mem _ hm))
      (fun m hm => h m (List.mem_cons_of_mem _ hm)) rest hrest
    have hdelimited := isDelimited_layOutMembers depth members hrest
    have hvalue : IsCutInto (value.layOut depth) value.tokensOf := h _ List.mem_cons_self depth
    simp only [layOutMembers, List.append_assoc, List.cons_append, List.nil_append]
    rw [tokens?_mark (by rfl), tokens?_newLine, tokens?_string, tokens?_mark (by rfl),
      tokens?_space (by rfl), hvalue _ hdelimited, hmembers, tokensOfMembers]
    simp [Option.map_map, Function.comp_def]

theorem IsPrintable.isCutInto {value : Json} (h : value.IsPrintable) (depth : Nat) :
    IsCutInto (value.layOut depth) value.tokensOf := by
  induction h generalizing depth with
  | null =>
    intro rest hrest
    exact tokens?_word rfl rfl (by simp) (by rfl) hrest
  | bool value =>
    intro rest hrest
    cases value with
    | true => exact tokens?_word rfl rfl (by simp) (by rfl) hrest
    | false => exact tokens?_word rfl rfl (by simp) (by rfl) hrest
  | number h =>
    intro rest hrest
    exact tokens?_number h hrest
  | text text =>
    intro rest hrest
    exact tokens?_string text rest
  | @array items _ ih =>
    intro rest hrest
    cases items with
    | nil =>
      simp only [layOut, List.cons_append, List.nil_append]
      rw [tokens?_mark (by rfl), tokens?_mark (by rfl), Option.map_map]
      rfl
    | cons item items =>
      have hend := isDelimited_newLine depth (']' :: rest)
      have hitems := isCutInto_layOutItems (fun i hi => ih i (List.mem_cons_of_mem item hi))
        (depth + 1) _ hend
      have hitem := ih item List.mem_cons_self (depth + 1) _
        (isDelimited_layOutItems (depth + 1) items hend)
      simp only [layOut, List.append_assoc, List.cons_append, List.nil_append]
      rw [tokens?_mark (by rfl), tokens?_newLine, hitem, hitems, tokens?_newLine,
        tokens?_mark (by rfl), tokensOf]
      simp [Option.map_map, Function.comp_def]
  | @object members keys _ ih =>
    intro rest hrest
    cases members with
    | nil =>
      simp only [layOut, List.cons_append, List.nil_append]
      rw [tokens?_mark (by rfl), tokens?_mark (by rfl), Option.map_map]
      rfl
    | cons m members =>
      obtain ⟨key, value⟩ := m
      obtain ⟨name, rfl⟩ : ∃ name, key = codesOf name := keys _ List.mem_cons_self
      have hend := isDelimited_newLine depth ('\x7d' :: rest)
      have hmembers := isCutInto_layOutMembers (fun m hm => keys m (List.mem_cons_of_mem _ hm))
        (fun m hm => ih m (List.mem_cons_of_mem _ hm)) (depth + 1) _ hend
      have hvalue := ih _ List.mem_cons_self (depth + 1) _
        (isDelimited_layOutMembers (depth + 1) members hend)
      simp only [layOut, List.append_assoc, List.cons_append, List.nil_append]
      rw [tokens?_mark (by rfl), tokens?_newLine, tokens?_string, tokens?_mark (by rfl),
        tokens?_space (by rfl), hvalue, hmembers, tokens?_newLine,
        tokens?_mark (by rfl), tokensOf]
      simp [Option.map_map, Function.comp_def]

/-! ## Values from tokens -/

/-- In front of the first item of an array the reader takes a value as it does behind a comma. -/
theorem foldlM_tokensOf_firstItem (value : Json) (stack : List Frame) :
    value.tokensOf.foldlM Place.next? ⟨.firstItem, stack⟩ =
      value.tokensOf.foldlM Place.next? ⟨.value, .array [] :: stack⟩ := by
  cases value with
  | array items => cases items <;> rfl
  | object members => cases members <;> rfl
  | _ => rfl

mutual

/-- The tokens of a value lead from the place in front of it to the place behind it. -/
theorem foldlM_tokensOf : ∀ (value : Json) (stack : List Frame),
    value.tokensOf.foldlM Place.next? ⟨.value, stack⟩ = some ⟨.after value, stack⟩
  | .null, _ => rfl
  | .bool _, _ => rfl
  | .number _, _ => rfl
  | .string _, _ => rfl
  | .array [], _ => rfl
  | .array (item :: items), stack => by
    have hitem : item.tokensOf.foldlM Place.next? ⟨.firstItem, stack⟩ = _ :=
      (foldlM_tokensOf_firstItem item stack).trans (foldlM_tokensOf item _)
    rw [tokensOf, List.append_assoc, List.foldlM_cons]
    -- The bracket leaves the stack as it is: the array's frame opens with its first item.
    show List.foldlM Place.next? ⟨.firstItem, stack⟩ _ = _
    rw [List.foldlM_append, hitem]
    exact foldlM_tokensOfItems items [] item stack
  | .object [], _ => rfl
  | .object ((key, value) :: members), stack => by
    rw [tokensOf, List.append_assoc]
    show List.foldlM Place.next? ⟨.value, .object [] key :: stack⟩ _ = _
    rw [List.foldlM_append, foldlM_tokensOf value]
    exact foldlM_tokensOfMembers members [] key value stack

theorem foldlM_tokensOfItems : ∀ (items read : List Json) (value : Json) (stack : List Frame),
    (tokensOfItems items ++ [Token.arrayEnd]).foldlM Place.next? ⟨.after value, .array read :: stack⟩ =
      some ⟨.after (.array (read.reverse ++ value :: items)), stack⟩
  | [], read, value, stack => by
    rw [← List.reverse_cons]
    rfl
  | item :: items, read, value, stack => by
    rw [tokensOfItems, List.cons_append, List.append_assoc]
    show List.foldlM Place.next? ⟨.value, .array (value :: read) :: stack⟩ _ = _
    rw [List.foldlM_append, foldlM_tokensOf item]
    simpa using foldlM_tokensOfItems items (value :: read) item stack

theorem foldlM_tokensOfMembers : ∀ (members read : List (List Nat × Json)) (key : List Nat)
    (value : Json) (stack : List Frame),
    (tokensOfMembers members ++ [Token.objectEnd]).foldlM Place.next?
        ⟨.after value, .object read key :: stack⟩ =
      some ⟨.after (.object (read.reverse ++ (key, value) :: members)), stack⟩
  | [], read, key, value, stack => by
    rw [← List.reverse_cons]
    rfl
  | (key', value') :: members, read, key, value, stack => by
    rw [tokensOfMembers, List.cons_append, List.cons_append, List.cons_append, List.append_assoc]
    show List.foldlM Place.next? ⟨.value, .object ((key, value) :: read) key' :: stack⟩ _ = _
    rw [List.foldlM_append, foldlM_tokensOf value']
    simpa using foldlM_tokensOfMembers members ((key, value) :: read) key' value' stack

end

theorem ofTokens?_tokensOf (value : Json) : ofTokens? value.tokensOf = some value := by
  rw [ofTokens?, Place.start, foldlM_tokensOf]
  rfl

/-- A value is read back from what it is printed as. -/
theorem parse?_pretty {value : Json} (h : value.IsPrintable) : parse? value.pretty = some value := by
  have hcut := h.isCutInto 0 [] (by intro c hc; cases hc)
  rw [List.append_nil, tokens?, Option.map_some, List.append_nil] at hcut
  rw [parse?, pretty, String.toList_ofList, hcut, Option.bind_some, ofTokens?_tokensOf]

end RobotRoutine.Json
