import CommentedCode.Proofs.Decimal.ReadBack
import CommentedCode.Text.Json
/-!
# Reading JSON

A reader of JSON gives back what was written, if its numbers can be written and its floating-point
numbers are probabilities.
-/
namespace CommentedCode
namespace Json

/-! ### The reader -/

def isSpace (c : Char) : Bool :=
  c == ' ' || c == '\t' || c == '\n' || c == '\r'

def skip (cs : Text) : Text :=
  cs.dropWhile isSpace

def hexDigit? (c : Char) : Option Nat :=
  if c.isDigit then some (c.toNat - '0'.toNat)
  else if 'a' ≤ c ∧ c ≤ 'f' then some (c.toNat - 'a'.toNat + 10)
  else if 'A' ≤ c ∧ c ≤ 'F' then some (c.toNat - 'A'.toNat + 10)
  else none

/-- The character of four digits to the base sixteen. -/
def codePoint? (digits : Text) : Option Char := do
  let values ← digits.mapM hexDigit?
  let n := values.foldl (fun n d => 16 * n + d) 0
  if n.isValidChar then some (Char.ofNat n) else none

/-- What a backslash in front of a character makes of it. -/
def unescaped? : Char → Option Char
  | '"' => some '"'
  | '\\' => some '\\'
  | '/' => some '/'
  | 'b' => some '\x08'
  | 'f' => some '\x0C'
  | 'n' => some '\n'
  | 'r' => some '\r'
  | 't' => some '\t'
  | _ => none

/-- The text up to the closing quote, and what stands behind that. -/
def readText : Text → Option (Text × Text)
  | [] => none
  | '"' :: rest => some ([], rest)
  | '\\' :: 'u' :: a :: b :: c :: d :: rest => do
    let first ← codePoint? [a, b, c, d]
    let (cs, rest) ← readText rest
    return (first :: cs, rest)
  | '\\' :: c :: rest => do
    let first ← unescaped? c
    let (cs, rest) ← readText rest
    return (first :: cs, rest)
  | c :: rest => do
    guard (0x20 ≤ c.toNat)
    let (cs, rest) ← readText rest
    return (c :: cs, rest)

def isNumeric (c : Char) : Bool :=
  c.isDigit || c == '+' || c == '-' || c == '.' || c == 'e' || c == 'E'

def readNumber (token : Text) : Option Json :=
  if token.any fun c => c == '.' || c == 'e' || c == 'E' then (Reading.float? token).map .float
  else (Reading.int? token).map .int

/-- A word or a number. -/
def readScalar (cs : Text) : Option (Json × Text) :=
  match Text.after? "null".toList cs, Text.after? "true".toList cs,
      Text.after? "false".toList cs with
  | some rest, _, _ => some (.null, rest)
  | _, some rest, _ => some (.bool true, rest)
  | _, _, some rest => some (.bool false, rest)
  | none, none, none =>
    (readNumber (cs.takeWhile isNumeric)).map (·, cs.dropWhile isNumeric)

mutual

/-- Data at the front of a text, and the rest of that.  Every step into the data takes a unit. -/
def readFront : Nat → Text → Option (Json × Text)
  | 0, _ => none
  | _ + 1, '"' :: cs => (readText cs).map fun (t, rest) => (.text t, rest)
  | bound + 1, '[' :: cs =>
    match skip cs with
    | ']' :: rest => some (.array [], rest)
    | inside => (readItems bound inside).map fun (items, rest) => (.array items, rest)
  | bound + 1, '\x7b' :: cs =>
    match skip cs with
    | '\x7d' :: rest => some (.object [], rest)
    | inside => (readMembers bound inside).map fun (members, rest) => (.object members, rest)
  | _ + 1, cs => readScalar cs

/-- Items up to the closing bracket. -/
def readItems : Nat → Text → Option (List Json × Text)
  | 0, _ => none
  | bound + 1, cs => do
    let (item, rest) ← readFront bound cs
    match skip rest with
    | ']' :: rest => return ([item], rest)
    | ',' :: rest => do
      let (items, rest) ← readItems bound (skip rest)
      return (item :: items, rest)
    | _ => none

/-- Members up to the closing brace. -/
def readMembers : Nat → Text → Option (List (String × Json) × Text)
  | 0, _ => none
  | bound + 1, '"' :: cs => do
    let (name, rest) ← readText cs
    match skip rest with
    | ':' :: rest => do
      let (item, rest) ← readFront bound (skip rest)
      match skip rest with
      | '\x7d' :: rest => return ([(String.ofList name, item)], rest)
      | ',' :: rest => do
        let (members, rest) ← readMembers bound (skip rest)
        return ((String.ofList name, item) :: members, rest)
      | _ => none
    | _ => none
  | _ + 1, _ => none

end

/-- The data that a text is. -/
def read? (cs : Text) : Option Json := do
  let (json, rest) ← readFront (cs.length + 1) (skip cs)
  guard (skip rest = [])
  return json

/-- Data whose numbers can be written and read. -/
inductive Legible : Json → Prop
  | null : Legible .null
  | bool (b : Bool) : Legible (.bool b)
  | int {n : Int} (h : n.natAbs < 10 ^ digitLimit) : Legible (.int n)
  | float {x : Float} (h : Double.IsProbability x) : Legible (.float x)
  | text (cs : Text) : Legible (.text cs)
  | array {items : List Json} (h : ∀ item ∈ items, Legible item) : Legible (.array items)
  | object {members : List (String × Json)} (h : ∀ member ∈ members, Legible member.2) :
      Legible (.object members)

/-! ### Texts -/

private theorem readText_cons {c : Char} (hquote : c ≠ '"') (hslash : c ≠ '\\')
    (hcontrol : 0x20 ≤ c.toNat) (cs : Text) :
    readText (c :: cs) = (readText cs).map fun (ds, rest) => (c :: ds, rest) := by
  rw [readText]
  · simp only [guard, hcontrol, if_true]
    cases readText cs <;> rfl
  · simpa using hquote
  · simp [hslash]
  · simp [hslash]

private theorem codePoint?_control : ∀ n < 0x20, ∃ a b c d, Quoted.hexDigits 4 n = [a, b, c, d] ∧
    codePoint? [a, b, c, d] = some (Char.ofNat n) := by
  have hdigits : ∀ n < 0x20, (Quoted.hexDigits 4 n).length = 4 ∧
      codePoint? (Quoted.hexDigits 4 n) = some (Char.ofNat n) := by decide +kernel
  intro n hn
  obtain ⟨hlength, hread⟩ := hdigits n hn
  obtain ⟨a, b, c, d, hfour⟩ := List.length_eq_four.mp hlength
  exact ⟨a, b, c, d, hfour, hfour ▸ hread⟩

private theorem readText_unescaped {name c : Char} (h : unescaped? name = some c) (hu : name ≠ 'u')
    (cs : Text) :
    readText ('\\' :: name :: cs) = (readText cs).map fun (ds, rest) => (c :: ds, rest) := by
  rw [readText]
  · rw [h]
    cases readText cs <;> rfl
  · rintro a b d e rest rfl
    exact absurd rfl hu

private theorem readText_escape (c : Char) (cs : Text) :
    readText (escape c ++ cs) = (readText cs).map fun (ds, rest) => (c :: ds, rest) := by
  rw [escape]
  split_ifs with hself hn hr ht hb hf hcontrol
  · rw [Bool.or_eq_true, decide_eq_true_eq, decide_eq_true_eq] at hself
    rcases hself with rfl | rfl
    · exact readText_unescaped rfl (by decide) cs
    · exact readText_unescaped rfl (by decide) cs
  · exact hn ▸ readText_unescaped rfl (by decide) cs
  · exact hr ▸ readText_unescaped rfl (by decide) cs
  · exact ht ▸ readText_unescaped rfl (by decide) cs
  · exact hb ▸ readText_unescaped rfl (by decide) cs
  · exact hf ▸ readText_unescaped rfl (by decide) cs
  · obtain ⟨a, b, d, e, hfour, hread⟩ := codePoint?_control c.toNat hcontrol
    rw [hfour]
    change readText ('\\' :: 'u' :: a :: b :: d :: e :: cs) = _
    rw [readText, hread, Char.ofNat_toNat]
    cases readText cs <;> rfl
  · simp only [Bool.or_eq_true, decide_eq_true_eq, not_or] at hself
    exact readText_cons hself.1 hself.2 (not_lt.mp hcontrol) cs

private theorem readText_flatMap (cs rest : Text) :
    readText (cs.flatMap escape ++ '"' :: rest) = some (cs, rest) := by
  induction cs with
  | nil => simp [readText]
  | cons c cs ih =>
    rw [List.flatMap_cons, List.append_assoc, readText_escape, ih]
    rfl

/-! ### Numbers -/

/-- Nothing that goes on with a number. -/
def Ends (rest : Text) : Prop :=
  ∀ c ∈ rest.head?, isNumeric c = false

private theorem printed_numeric :
    ∀ c ∈ Reading.printed, isNumeric c = true ∧ c ≠ 'n' ∧ c ≠ 't' ∧ c ≠ 'f' :=
  List.forall_iff_forall_mem.mp (by decide +kernel)

private theorem readScalar_number {token : Text} {json : Json} (hne : token ≠ [])
    (h : token ⊆ Reading.printed) (hread : readNumber token = some json) {rest : Text}
    (hrest : Ends rest) : readScalar (token ++ rest) = some (json, rest) := by
  have htoken : ∀ c ∈ token, isNumeric c = true := fun c hc => (printed_numeric c (h hc)).1
  have htake : (token ++ rest).takeWhile isNumeric = token ∧
      (token ++ rest).dropWhile isNumeric = rest := by
    rw [List.takeWhile_append_of_pos htoken, List.dropWhile_append_of_pos htoken]
    cases rest with
    | nil => simp
    | cons c rest => simp [hrest c rfl]
  have hword {word : Text} (hfirst : ∃ c ∈ word.head?, c = 'n' ∨ c = 't' ∨ c = 'f') :
      Text.after? word (token ++ rest) = none := by
    obtain ⟨c, cs, rfl⟩ := List.exists_cons_of_ne_nil hne
    obtain ⟨-, hn, ht, hf⟩ := printed_numeric c (h List.mem_cons_self)
    cases word with
    | nil => simp at hfirst
    | cons first word =>
      refine if_neg ?_
      rintro rfl
      simp [hn, ht, hf] at hfirst
  rw [readScalar, hword (by simp), hword (by simp), hword (by simp)]
  dsimp only
  rw [htake.1, htake.2, hread]
  rfl

private theorem exists_mark (d : Decimal) : ∃ c ∈ d.text, c = '.' ∨ c = 'e' := by
  have hpositional (digits : Text) (point : Int) : '.' ∈ Decimal.positional digits point := by
    rw [Decimal.positional]
    split_ifs <;> simp
  have hscientific (digits : Text) (e : Int) : 'e' ∈ Decimal.scientific digits e := by
    simp [Decimal.scientific]
  simp only [Decimal.text]
  split_ifs
  · exact ⟨'.', by simp, .inl rfl⟩
  · exact ⟨'.', List.mem_cons_of_mem _ (hpositional _ _), .inl rfl⟩
  · exact ⟨'e', List.mem_cons_of_mem _ (hscientific _ _), .inr rfl⟩
  · exact ⟨'.', by simp, .inl rfl⟩
  · exact ⟨'.', hpositional _ _, .inl rfl⟩
  · exact ⟨'e', hscientific _ _, .inr rfl⟩

private theorem readNumber_float {x : Float} (hx : Double.IsProbability x) :
    readNumber (floatText x) = some (.float x) := by
  obtain ⟨d, hd, -⟩ := Decimal.toFloat_of_shortest hx
  have htext : floatText x = d.text := by rw [floatText, hd, Numeral.text]
  obtain ⟨c, hc, hmark⟩ := exists_mark d
  have hany : (floatText x).any (fun c => c == '.' || c == 'e' || c == 'E') = true := by
    rw [List.any_eq_true, htext]
    refine ⟨c, hc, ?_⟩
    rcases hmark with rfl | rfl <;> rfl
  rw [readNumber, if_pos hany, Reading.float?_floatText hx]
  rfl

private theorem floatText_subset {x : Float} (hx : Double.IsProbability x) :
    floatText x ⊆ Reading.printed ∧ floatText x ≠ [] := by
  obtain ⟨d, hd, -⟩ := Decimal.toFloat_of_shortest hx
  obtain ⟨cs, htext, hunsigned⟩ := d.exists_unsigned
  rw [floatText, hd, Numeral.text, htext]
  obtain ⟨c, hc, -⟩ := hunsigned.head
  have hne : cs ≠ [] := by
    rintro rfl
    cases hc
  split
  · exact ⟨List.cons_subset.mpr ⟨by decide, hunsigned.chars⟩, List.cons_ne_nil _ _⟩
  · exact ⟨hunsigned.chars, hne⟩

private theorem intText_subset (n : Int) : intText n ⊆ Reading.printed ∧ intText n ≠ [] := by
  have hdigits : decimalDigits n.natAbs ⊆ Reading.printed :=
    fun c hc => Reading.mem_printed_of_isDigit (all_isDigit_decimalDigits _ c hc)
  rw [intText]
  split
  · exact ⟨List.cons_subset.mpr ⟨by decide, hdigits⟩, List.cons_ne_nil _ _⟩
  · exact ⟨hdigits, decimalDigits_ne_nil _⟩

private theorem int?_intText {n : Int} (h : n.natAbs < 10 ^ digitLimit) :
    Reading.int? (intText n) = some n := by
  have hall := all_isDigit_decimalDigits n.natAbs
  have hlength : (decimalDigits n.natAbs).length ≤ digitLimit :=
    (Nat.length_toDigits_le_iff (by decide) (by decide)).mpr h
  have hsign : Reading.sign (intText n) = (decide (n < 0), decimalDigits n.natAbs) := by
    rw [intText]
    split
    · rename_i hneg
      rw [Reading.sign, decide_eq_true hneg]
    · rename_i hpos
      obtain ⟨c, cs, hcs⟩ := List.exists_cons_of_ne_nil (decimalDigits_ne_nil n.natAbs)
      have hc := hall c (by rw [hcs]; exact List.mem_cons_self)
      rw [decide_eq_false hpos, hcs, Reading.sign_cons]
      · rintro rfl
        cases hc
      · rintro rfl
        cases hc
  have hdigits : decimalDigits n.natAbs ⊆ Reading.printed :=
    fun c hc => Reading.mem_printed_of_isDigit (hall c hc)
  rw [Reading.int?, Reading.body_of_printed (intText_subset n).1, hsign]
  dsimp only
  rw [Reading.joinDigits_of_printed hdigits]
  dsimp only
  rw [if_pos (by simp [decimalDigits_ne_nil, hlength, List.all_eq_true.mpr hall]),
    Reading.digitsValue_decimalDigits]
  by_cases hneg : n < 0
  · simp [hneg, abs_of_neg]
  · simp [hneg, abs_of_nonneg, not_lt.mp hneg]

private theorem readNumber_int {n : Int} (h : n.natAbs < 10 ^ digitLimit) :
    readNumber (intText n) = some (.int n) := by
  have hmark : ∀ c ∈ intText n, c.isDigit = true ∨ c = '-' := by
    have hall := all_isDigit_decimalDigits n.natAbs
    rw [intText]
    split
    · exact List.forall_mem_cons.mpr ⟨.inr rfl, fun c hc => .inl (hall c hc)⟩
    · exact fun c hc => .inl (hall c hc)
  have hany : ¬(intText n).any (fun c => c == '.' || c == 'e' || c == 'E') = true := by
    rw [List.any_eq_true]
    rintro ⟨c, hc, hbad⟩
    simp only [Bool.or_eq_true, beq_iff_eq] at hbad
    rcases hbad with (rfl | rfl) | rfl <;> exact absurd (hmark _ hc) (by decide)
  rw [readNumber, if_neg hany, int?_intText h]
  rfl

/-! ### Data -/

private theorem skip_of_not {c : Char} (h : isSpace c = false) (cs : Text) :
    skip (c :: cs) = c :: cs :=
  List.dropWhile_cons_of_neg (by simp [h])

private theorem skip_space (cs : Text) : skip (' ' :: cs) = skip cs :=
  List.dropWhile_cons_of_pos rfl

private theorem readFront_scalar {c : Char} (hquote : c ≠ '"')
    (hitems : c ≠ '[') (hmembers : c ≠ '\x7b')
    (bound : Nat) (cs : Text) : readFront (bound + 1) (c :: cs) = readScalar (c :: cs) := by
  rw [readFront]
  · simp [hquote]
  · simp [hitems]
  · simp [hmembers]

private theorem render_float {x : Float} (hx : Double.IsProbability x) :
    render (.float x) = floatText x := by
  obtain ⟨d, hd, -⟩ := Decimal.toFloat_of_shortest hx
  rw [render, floatText, hd, numeralText, Numeral.text]

private theorem printed_first :
    ∀ c ∈ Reading.printed, isSpace c = false ∧ c ≠ ']' ∧ c ≠ '"' ∧ c ≠ '[' ∧ c ≠ '\x7b' :=
  List.forall_iff_forall_mem.mp (by decide +kernel)

/-- Data begins with a character that is neither a space nor the end of other data. -/
theorem Legible.exists_first {json : Json} (h : Legible json) :
    ∃ c cs, json.render = c :: cs ∧ isSpace c = false ∧ c ≠ ']' := by
  have hnumber {token : Text} (hsubset : token ⊆ Reading.printed) (hne : token ≠ []) :
      ∃ c cs, token = c :: cs ∧ isSpace c = false ∧ c ≠ ']' := by
    obtain ⟨c, cs, rfl⟩ := List.exists_cons_of_ne_nil hne
    obtain ⟨hspace, hend, -⟩ := printed_first c (hsubset List.mem_cons_self)
    exact ⟨c, cs, rfl, hspace, hend⟩
  cases h with
  | null => exact ⟨'n', _, rfl, rfl, by decide⟩
  | bool b =>
    cases b
    · exact ⟨'f', _, rfl, rfl, by decide⟩
    · exact ⟨'t', _, rfl, rfl, by decide⟩
  | int h => exact hnumber (intText_subset _).1 (intText_subset _).2
  | float h =>
    rw [render_float h]
    exact hnumber (floatText_subset h).1 (floatText_subset h).2
  | text cs => exact ⟨'"', _, rfl, rfl, by decide⟩
  | array h => exact ⟨'[', _, rfl, rfl, by decide⟩
  | object h => exact ⟨'\x7b', _, rfl, rfl, by decide⟩

private theorem Legible.skip_render {json : Json} (h : Legible json) (rest : Text) :
    skip (json.render ++ rest) = json.render ++ rest := by
  obtain ⟨c, cs, hfirst, hspace, -⟩ := h.exists_first
  rw [hfirst]
  exact skip_of_not hspace _

/-- A reader with enough units gives data back, in front of anything that no number goes on
with. -/
def ReadsBack (json : Json) : Prop :=
  ∀ bound, json.render.length ≤ bound → ∀ rest, Ends rest →
    readFront (bound + 1) (json.render ++ rest) = some (json, rest)

private theorem ends_cons {c : Char} (h : isNumeric c = false) (rest : Text) :
    Ends (c :: rest) := by
  rintro _ ⟨⟩
  exact h

private theorem exists_join_cons (sep part : Text) (parts : List Text) :
    ∃ more, Text.join sep (part :: parts) = part ++ more := by
  cases parts with
  | nil => exact ⟨[], by rw [Text.join_singleton, List.append_nil]⟩
  | cons next parts => exact ⟨_, Text.join_cons sep part (List.cons_ne_nil _ _)⟩

private theorem exists_first_renderAll {item : Json} (h : Legible item) (items : List Json) :
    ∃ c cs, Text.join [',', ' '] (renderAll (item :: items)) = c :: cs ∧ isSpace c = false ∧
      c ≠ ']' := by
  obtain ⟨more, hmore⟩ := exists_join_cons [',', ' '] item.render (renderAll items)
  obtain ⟨c, cs, hfirst, hc⟩ := h.exists_first
  exact ⟨c, cs ++ more, by rw [renderAll, hmore, hfirst, List.cons_append], hc⟩

private theorem exists_quote_renderMembers (member : String × Json)
    (members : List (String × Json)) :
    ∃ cs, Text.join [',', ' '] (renderMembers (member :: members)) = '"' :: cs := by
  obtain ⟨more, hmore⟩ := exists_join_cons [',', ' ']
    (quoted member.1.toList ++ ':' :: ' ' :: member.2.render) (renderMembers members)
  exact ⟨_, hmore⟩

section

variable {bound : Nat} {cs value more rest : Text} {item : Json} {items : List Json}
  {members : List (String × Json)}

private theorem readItems_last (h : readFront bound cs = some (item, ']' :: rest)) :
    readItems (bound + 1) cs = some ([item], rest) := by
  rw [readItems, h]
  simp only [Option.bind_eq_bind, Option.bind_some, skip_of_not (c := ']') rfl]
  rfl

private theorem readItems_next (h : readFront bound cs = some (item, ',' :: ' ' :: more))
    (hskip : skip more = more) (hmore : readItems bound more = some (items, rest)) :
    readItems (bound + 1) cs = some (item :: items, rest) := by
  rw [readItems, h]
  simp only [Option.bind_eq_bind, Option.bind_some, skip_of_not (c := ',') rfl, skip_space, hskip,
    hmore]
  rfl

private theorem readMembers_last (name : String) (hvalue : skip value = value)
    (h : readFront bound value = some (item, '\x7d' :: rest)) :
    readMembers (bound + 1) (quoted name.toList ++ ':' :: ' ' :: value) =
      some ([(name, item)], rest) := by
  simp only [quoted, List.cons_append, List.append_assoc, List.nil_append, readMembers,
    readText_flatMap, Option.bind_eq_bind, Option.bind_some, skip_of_not (c := ':') rfl,
    skip_space, hvalue, h, skip_of_not (c := '\x7d') rfl, String.ofList_toList]
  rfl

private theorem readMembers_next (name : String) (hvalue : skip value = value)
    (h : readFront bound value = some (item, ',' :: ' ' :: more)) (hskip : skip more = more)
    (hmore : readMembers bound more = some (members, rest)) :
    readMembers (bound + 1) (quoted name.toList ++ ':' :: ' ' :: value) =
      some ((name, item) :: members, rest) := by
  simp only [quoted, List.cons_append, List.append_assoc, List.nil_append, readMembers,
    readText_flatMap, Option.bind_eq_bind, Option.bind_some, skip_of_not (c := ':') rfl,
    skip_space, hvalue, h, skip_of_not (c := ',') rfl, hskip, hmore, String.ofList_toList]
  rfl

end

theorem readItems_renderAll {items : List Json} (hne : items ≠ [])
    (hlegible : ∀ item ∈ items, Legible item) (h : ∀ item ∈ items, ReadsBack item) (bound : Nat)
    (hbound : (Text.join [',', ' '] (renderAll items)).length + 2 ≤ bound) (rest : Text) :
    readItems bound (Text.join [',', ' '] (renderAll items) ++ ']' :: rest) =
      some (items, rest) := by
  induction items generalizing bound with
  | nil => exact absurd rfl hne
  | cons item items ih =>
    obtain ⟨bound, rfl⟩ : ∃ k, bound = k + 2 := ⟨bound - 2, by omega⟩
    have hitem := h item List.mem_cons_self
    cases items with
    | nil =>
      rw [renderAll, renderAll, Text.join_singleton] at hbound ⊢
      exact readItems_last (hitem bound (by omega) (']' :: rest) (ends_cons rfl _))
    | cons next items =>
      obtain ⟨-, hlegible⟩ := List.forall_mem_cons.mp hlegible
      obtain ⟨-, h⟩ := List.forall_mem_cons.mp h
      obtain ⟨c, cs, hfirst, hspace, -⟩ :=
        exists_first_renderAll (hlegible next List.mem_cons_self) items
      have hskip : skip (Text.join [',', ' '] (renderAll (next :: items)) ++ ']' :: rest) =
          Text.join [',', ' '] (renderAll (next :: items)) ++ ']' :: rest := by
        rw [hfirst]
        exact skip_of_not hspace _
      rw [renderAll, Text.join_cons _ _ (by simp [renderAll])] at hbound ⊢
      simp only [List.length_append, List.length_cons, List.length_nil] at hbound
      rw [List.append_assoc, List.append_assoc]
      apply readItems_next _ hskip
      · exact ih (List.cons_ne_nil _ _) hlegible h (bound + 1) (by omega)
      · exact hitem bound (by omega) _ (ends_cons rfl _)

theorem readMembers_renderMembers {members : List (String × Json)} (hne : members ≠ [])
    (hlegible : ∀ member ∈ members, Legible member.2)
    (h : ∀ member ∈ members, ReadsBack member.2) (bound : Nat)
    (hbound : (Text.join [',', ' '] (renderMembers members)).length + 2 ≤ bound) (rest : Text) :
    readMembers bound (Text.join [',', ' '] (renderMembers members) ++ '\x7d' :: rest) =
      some (members, rest) := by
  induction members generalizing bound with
  | nil => exact absurd rfl hne
  | cons member members ih =>
    obtain ⟨name, item⟩ := member
    obtain ⟨bound, rfl⟩ : ∃ k, bound = k + 2 := ⟨bound - 2, by omega⟩
    have hitem : ReadsBack item := h _ List.mem_cons_self
    have hvalue := (hlegible _ List.mem_cons_self).skip_render
    cases members with
    | nil =>
      rw [renderMembers, renderMembers, Text.join_singleton] at hbound ⊢
      simp only [List.length_append, List.length_cons] at hbound
      rw [List.append_assoc]
      apply readMembers_last name (hvalue _)
      exact hitem bound (by omega) ('\x7d' :: rest) (ends_cons rfl _)
    | cons next members =>
      obtain ⟨-, hlegible⟩ := List.forall_mem_cons.mp hlegible
      obtain ⟨-, h⟩ := List.forall_mem_cons.mp h
      obtain ⟨cs, hfirst⟩ := exists_quote_renderMembers next members
      have hskip : skip (Text.join [',', ' '] (renderMembers (next :: members)) ++ '\x7d' :: rest) =
          Text.join [',', ' '] (renderMembers (next :: members)) ++ '\x7d' :: rest := by
        rw [hfirst]
        exact skip_of_not rfl _
      rw [renderMembers, Text.join_cons _ _ (by simp [renderMembers])] at hbound ⊢
      simp only [List.length_append, List.length_cons, List.length_nil] at hbound
      rw [List.append_assoc, List.append_assoc, List.append_assoc]
      apply readMembers_next name (hvalue _) _ hskip
      · exact ih (List.cons_ne_nil _ _) hlegible h (bound + 1) (by omega)
      · exact hitem bound (by omega) _ (ends_cons rfl _)

private theorem readFront_numeric {token : Text} {json : Json} (hne : token ≠ [])
    (h : token ⊆ Reading.printed) (hread : readNumber token = some json) (bound : Nat) {rest : Text}
    (hrest : Ends rest) :
    readFront (bound + 1) (token ++ rest) = some (json, rest) := by
  have hscalar := readScalar_number hne h hread hrest
  obtain ⟨c, cs, rfl⟩ := List.exists_cons_of_ne_nil hne
  obtain ⟨-, -, hquote, hitems, hmembers⟩ := printed_first c (h List.mem_cons_self)
  exact (readFront_scalar hquote hitems hmembers bound (cs ++ rest)).trans hscalar

private theorem ReadsBack.array {items : List Json} (hlegible : ∀ item ∈ items, Legible item)
    (h : ∀ item ∈ items, ReadsBack item) : ReadsBack (.array items) := by
  intro bound hbound rest _
  simp only [render, List.cons_append, List.append_assoc, List.nil_append, List.length_cons,
    List.length_append, List.length_nil] at hbound ⊢
  cases items with
  | nil => rfl
  | cons item items =>
    have hread := readItems_renderAll (List.cons_ne_nil _ _) hlegible h bound (by omega) rest
    obtain ⟨c, cs, hfirst, hspace, hend⟩ :=
      exists_first_renderAll (hlegible item List.mem_cons_self) items
    rw [hfirst, List.cons_append] at hread ⊢
    rw [readFront, skip_of_not hspace]
    split
    · rename_i hbracket
      exact absurd (List.cons.inj hbracket).1 hend
    · rw [hread]
      rfl

private theorem ReadsBack.object {members : List (String × Json)}
    (hlegible : ∀ member ∈ members, Legible member.2) (h : ∀ member ∈ members, ReadsBack member.2) :
    ReadsBack (.object members) := by
  intro bound hbound rest _
  simp only [render, List.cons_append, List.append_assoc, List.nil_append, List.length_cons,
    List.length_append, List.length_nil] at hbound ⊢
  cases members with
  | nil => rfl
  | cons member members =>
    have hread := readMembers_renderMembers (List.cons_ne_nil _ _) hlegible h bound (by omega) rest
    obtain ⟨cs, hfirst⟩ := exists_quote_renderMembers member members
    rw [hfirst, List.cons_append] at hread ⊢
    rw [readFront, skip_of_not rfl]
    split
    · rename_i hbrace
      cases hbrace
    · rw [hread]
      rfl

theorem Legible.readsBack {json : Json} (h : Legible json) : ReadsBack json := by
  induction h with
  | null =>
    intro bound _ rest _
    exact readFront_scalar (by decide) (by decide) (by decide) bound ("ull".toList ++ rest)
  | bool b =>
    intro bound _ rest _
    cases b
    · exact readFront_scalar (by decide) (by decide) (by decide) bound ("alse".toList ++ rest)
    · exact readFront_scalar (by decide) (by decide) (by decide) bound ("rue".toList ++ rest)
  | @int n h =>
    intro bound _ rest hrest
    exact readFront_numeric (intText_subset n).2 (intText_subset n).1 (readNumber_int h) bound hrest
  | @float x h =>
    intro bound _ rest hrest
    rw [render_float h]
    exact readFront_numeric (floatText_subset h).2 (floatText_subset h).1 (readNumber_float h) bound
      hrest
  | text cs =>
    intro bound _ rest _
    simp only [render, quoted, List.cons_append, List.append_assoc, List.nil_append, readFront,
      readText_flatMap]
    rfl
  | array h ih => exact .array h ih
  | object h ih => exact .object h ih

/-- What is written of legible data is read as that data. -/
theorem read?_render {json : Json} (h : Legible json) : read? json.render = some json := by
  obtain ⟨c, cs, hfirst, hspace, -⟩ := h.exists_first
  have hskip : skip json.render = json.render ++ [] := by
    rw [List.append_nil, hfirst]
    exact skip_of_not hspace _
  rw [read?, hskip, h.readsBack _ le_rfl [] nofun]
  rfl

end Json
end CommentedCode
