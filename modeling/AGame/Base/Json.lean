import Mathlib

/-!
# JSON text

Python's `json.dumps` and `json.loads`. What is written is ASCII; a layout says where
blanks go, so that the compact and the indented form are one function. Reading what
was written gives the value back, whatever the layout (`loads_dumps`).

A float is the literal it is written as. A `\u` escape
of half a surrogate pair is no character here and is not read.
-/

namespace Base.Json

/-- A JSON value. -/
inductive Value where
  | null
  | bool (b : Bool)
  | int (n : ℤ)
  /-- A number that is no integer, as it is written. -/
  | float (literal : List Char)
  | str (s : String)
  | arr (items : List Value)
  | obj (members : List (String × Value))

/-! ## Strings -/

def hexDigit (n : ℕ) : Char := if n < 10 then Char.ofNat (48 + n) else Char.ofNat (87 + n)

def hexValue (c : Char) : Option ℕ :=
  if 48 ≤ c.toNat ∧ c.toNat ≤ 57 then some (c.toNat - 48)
  else if 97 ≤ c.toNat ∧ c.toNat ≤ 102 then some (c.toNat - 87)
  else if 65 ≤ c.toNat ∧ c.toNat ≤ 70 then some (c.toNat - 55)
  else none

def hex4 (n : ℕ) : List Char :=
  [hexDigit (n / 4096 % 16), hexDigit (n / 256 % 16), hexDigit (n / 16 % 16), hexDigit (n % 16)]

def unhex4 (a b c d : Char) : Option ℕ := do
  let a ← hexValue a
  let b ← hexValue b
  let c ← hexValue c
  let d ← hexValue d
  return 4096 * a + 256 * b + 16 * c + d

/-- The UTF-16 units of a character. -/
def utf16 (c : Char) : List ℕ :=
  if c.toNat < 0x10000 then [c.toNat]
  else [0xD800 + (c.toNat - 0x10000) / 0x400, 0xDC00 + (c.toNat - 0x10000) % 0x400]

/-- The letter behind the backslash, where there is a short escape. -/
def escapeLetter (c : Char) : Option Char :=
  if c = '"' then some '"'
  else if c = '\\' then some '\\'
  else if c = '\n' then some 'n'
  else if c = '\r' then some 'r'
  else if c = '\t' then some 't'
  else if c.toNat = 8 then some 'b'
  else if c.toNat = 12 then some 'f'
  else none

/-- One character of a string, as `ensure_ascii` writes it. -/
def escape (c : Char) : List Char :=
  match escapeLetter c with
  | some letter => ['\\', letter]
  | none =>
      if 32 ≤ c.toNat ∧ c.toNat ≤ 126 then [c]
      else (utf16 c).flatMap fun unit => '\\' :: 'u' :: hex4 unit

def quote (s : String) : List Char := '"' :: (s.toList.flatMap escape ++ ['"'])

/-- What a short escape stands for. -/
def unescape (letter : Char) : Option Char :=
  if letter = '"' ∨ letter = '\\' ∨ letter = '/' then some letter
  else if letter = 'n' then some '\n'
  else if letter = 'r' then some '\r'
  else if letter = 't' then some '\t'
  else if letter = 'b' then some (Char.ofNat 8)
  else if letter = 'f' then some (Char.ofNat 12)
  else none

/-- The units of a string up to its closing quote, and what follows. -/
def readUnits : List Char → Option (List ℕ × List Char)
  | [] => none
  | '"' :: cs => some ([], cs)
  | '\\' :: 'u' :: a :: b :: c :: d :: cs => do
      let unit ← unhex4 a b c d
      let (units, rest) ← readUnits cs
      return (unit :: units, rest)
  | '\\' :: letter :: cs => do
      let c ← unescape letter
      let (units, rest) ← readUnits cs
      return (c.toNat :: units, rest)
  | c :: cs => do
      if c = '\\' ∨ c.toNat < 32 then none
      else
        let (units, rest) ← readUnits cs
        return (c.toNat :: units, rest)

def isHigh (unit : ℕ) : Bool := decide (0xD800 ≤ unit ∧ unit < 0xDC00)

def isLow (unit : ℕ) : Bool := decide (0xDC00 ≤ unit ∧ unit < 0xE000)

/-- A unit that is a character by itself. -/
def scalar (unit : ℕ) : Option Char :=
  if isHigh unit || isLow unit then none else some (Char.ofNat unit)

/-- The characters of UTF-16 units. -/
def joinUnits : List ℕ → Option (List Char)
  | [] => some []
  | [unit] => (scalar unit).map fun c => [c]
  | high :: low :: units =>
      if isHigh high && isLow low then
        (joinUnits units).map
          (Char.ofNat (0x10000 + 0x400 * (high - 0xD800) + (low - 0xDC00)) :: ·)
      else do
        let c ← scalar high
        let cs ← joinUnits (low :: units)
        return c :: cs

/-- A string behind its opening quote. -/
def readString (cs : List Char) : Option (String × List Char) := do
  let (units, rest) ← readUnits cs
  let chars ← joinUnits units
  return (String.ofList chars, rest)

/-! ### Reading back a string -/

theorem hexValue_hexDigit : ∀ n < 16, hexValue (hexDigit n) = some n := by decide

theorem unhex4_hex4 {n : ℕ} (h : n < 0x10000) {a b c d : Char} (hdigits : hex4 n = [a, b, c, d]) :
    unhex4 a b c d = some n := by
  simp only [hex4, List.cons.injEq, and_true] at hdigits
  obtain ⟨rfl, rfl, rfl, rfl⟩ := hdigits
  have hvalue : ∀ m, hexValue (hexDigit (m % 16)) = some (m % 16) :=
    fun m => hexValue_hexDigit _ (Nat.mod_lt m (by decide))
  simp only [unhex4, hvalue, Option.bind_eq_bind, Option.bind_some, Option.pure_def]
  congr 1
  omega

theorem unescape_of_escapeLetter {c letter : Char} (h : escapeLetter c = some letter) :
    unescape letter = some c ∧ letter ≠ 'u' := by
  unfold escapeLetter at h
  have hchar : ∀ {n : ℕ}, c.toNat = n → c = Char.ofNat n := by
    rintro n rfl
    exact (Char.ofNat_toNat c).symm
  split_ifs at h with h1 h2 h3 h4 h5 h6 h7
  all_goals
    obtain rfl := Option.some.inj h
    first
      | subst c
        decide
      | rw [hchar ‹_›]
        decide

theorem toNat_of_escapeLetter {c letter : Char} (h : escapeLetter c = some letter) :
    c.toNat < 128 := by
  unfold escapeLetter at h
  split_ifs at h
  all_goals
    first
      | subst c
        decide
      | omega

theorem toNat_valid (c : Char) :
    c.toNat < 0xD800 ∨ 0xE000 ≤ c.toNat ∧ c.toNat < 0x110000 := by
  rcases c.valid with h | ⟨h, h'⟩
  · exact Or.inl h
  · exact Or.inr ⟨h, h'⟩

/-- A character is no surrogate. -/
theorem scalar_toNat (c : Char) : scalar c.toNat = some c := by
  have hvalid := toNat_valid c
  unfold scalar isHigh isLow
  rw [if_neg, Char.ofNat_toNat]
  simp only [Bool.or_eq_true, decide_eq_true_eq]
  omega

theorem readUnits_hex4 {n : ℕ} (h : n < 0x10000) (rest : List Char) :
    readUnits ('\\' :: 'u' :: (hex4 n ++ rest)) =
      (readUnits rest).map fun p => (n :: p.1, p.2) := by
  have hread := unhex4_hex4 h rfl
  simp only [hex4, List.cons_append, List.nil_append, readUnits, hread, Option.bind_eq_bind,
    Option.bind_some]
  cases readUnits rest <;> rfl

theorem readUnits_short {c letter : Char} (hback : unescape letter = some c) (hu : letter ≠ 'u')
    (rest : List Char) : readUnits ('\\' :: letter :: rest) =
      (readUnits rest).map fun p => (c.toNat :: p.1, p.2) := by
  rw [readUnits, hback]
  · cases readUnits rest <;> rfl
  · intro _ _ _ _ _ hletter
    exact absurd hletter hu

theorem readUnits_plain {c : Char} (hquote : c ≠ '"') (hslash : c ≠ '\\') (hblank : 32 ≤ c.toNat)
    (rest : List Char) :
    readUnits (c :: rest) = (readUnits rest).map fun p => (c.toNat :: p.1, p.2) := by
  rw [readUnits, if_neg]
  · cases readUnits rest <;> rfl
  · rintro (hc | hc)
    · exact hslash hc
    · omega
  · exact hquote
  · intro _ _ _ _ _ hc
    exact absurd hc hslash
  · intro _ _ hc
    exact absurd hc hslash

theorem readUnits_escape (c : Char) (rest : List Char) :
    readUnits (escape c ++ rest) = (readUnits rest).map fun p => (utf16 c ++ p.1, p.2) := by
  have hvalid := toNat_valid c
  unfold escape
  split
  · rename_i letter hletter
    obtain ⟨hback, hu⟩ := unescape_of_escapeLetter hletter
    have hsmall : utf16 c = [c.toNat] := by
      unfold utf16
      rw [if_pos (lt_trans (toNat_of_escapeLetter hletter) (by decide))]
    rw [List.cons_append, List.cons_append, List.nil_append, readUnits_short hback hu, hsmall]
    rfl
  · rename_i hnone
    split_ifs with hprintable
    · have hsmall : utf16 c = [c.toNat] := by
        unfold utf16
        rw [if_pos (by omega)]
      rw [List.cons_append, List.nil_append, readUnits_plain _ _ hprintable.1, hsmall]
      · rfl
      · rintro rfl
        cases hnone
      · rintro rfl
        cases hnone
    · unfold utf16
      split_ifs with hsmall
      · rw [List.flatMap_singleton, List.cons_append, List.cons_append, readUnits_hex4 hsmall]
        rfl
      · rw [List.flatMap_cons, List.flatMap_singleton, List.append_assoc, List.cons_append,
          List.cons_append, readUnits_hex4 (by omega), List.cons_append, List.cons_append,
          readUnits_hex4 (by omega), Option.map_map]
        rfl

/-- A character that is one unit is taken by itself. -/
theorem joinUnits_cons {unit : ℕ} {c : Char} (hscalar : scalar unit = some c) (units : List ℕ) :
    joinUnits (unit :: units) = (joinUnits units).map (c :: ·) := by
  cases units with
  | nil =>
      show (scalar unit).map _ = _
      rw [hscalar]
      rfl
  | cons low units =>
      have hhigh : isHigh unit = false := by
        unfold scalar at hscalar
        split_ifs at hscalar with hsurrogate
        rw [Bool.or_eq_true, not_or] at hsurrogate
        exact Bool.eq_false_iff.mpr hsurrogate.1
      rw [joinUnits, hhigh, hscalar]
      cases joinUnits (low :: units) <;> rfl

theorem joinUnits_utf16 (cs : List Char) : joinUnits (cs.flatMap utf16) = some cs := by
  induction cs with
  | nil => rfl
  | cons c cs ih =>
      have hvalid := toNat_valid c
      rw [List.flatMap_cons, utf16]
      split_ifs with hsmall
      · rw [List.singleton_append, joinUnits_cons (scalar_toNat c), ih]
        rfl
      · have hhigh : isHigh (0xD800 + (c.toNat - 0x10000) / 0x400) = true := by
          rw [isHigh, decide_eq_true_eq]
          omega
        have hlow : isLow (0xDC00 + (c.toNat - 0x10000) % 0x400) = true := by
          rw [isLow, decide_eq_true_eq]
          omega
        have hpair : 0x10000 + 0x400 * (0xD800 + (c.toNat - 0x10000) / 0x400 - 0xD800) +
            (0xDC00 + (c.toNat - 0x10000) % 0x400 - 0xDC00) = c.toNat := by
          omega
        rw [List.cons_append, List.cons_append, List.nil_append, joinUnits, hhigh, hlow, hpair, ih,
          Char.ofNat_toNat]
        rfl

/-- **Strings are read back.** -/
theorem readString_quote (s : String) (rest : List Char) :
    readString (s.toList.flatMap escape ++ '"' :: rest) = some (s, rest) := by
  have hunits : ∀ cs : List Char, readUnits (cs.flatMap escape ++ '"' :: rest) =
      some (cs.flatMap utf16, rest) := by
    intro cs
    induction cs with
    | nil => rfl
    | cons c cs ih =>
        rw [List.flatMap_cons, List.append_assoc, readUnits_escape, ih, Option.map_some,
          List.flatMap_cons]
  simp only [readString, hunits, joinUnits_utf16, Option.bind_eq_bind, Option.bind_some,
    Option.pure_def, String.ofList_toList]

/-! ## Numbers -/

def digits (cs : List Char) : List Char × List Char :=
  (cs.takeWhile Char.isDigit, cs.dropWhile Char.isDigit)

/-- `0|[1-9]\d*` -/
def readWhole : List Char → Option (List Char × List Char)
  | [] => none
  | '0' :: cs => some (['0'], cs)
  | c :: cs => if c.isDigit then some (digits (c :: cs)) else none

/-- `(\.\d+)?` -/
def readFraction : List Char → List Char × List Char
  | '.' :: cs =>
      if (digits cs).1 = [] then ([], '.' :: cs) else ('.' :: (digits cs).1, (digits cs).2)
  | cs => ([], cs)

/-- `[-+]?` -/
def readSign : List Char → List Char × List Char
  | [] => ([], [])
  | c :: cs => if c = '+' ∨ c = '-' then ([c], cs) else ([], c :: cs)

/-- `([eE][-+]?\d+)?` -/
def readExponent : List Char → List Char × List Char
  | [] => ([], [])
  | e :: cs =>
      if (e = 'e' ∨ e = 'E') ∧ (digits (readSign cs).2).1 ≠ [] then
        (e :: ((readSign cs).1 ++ (digits (readSign cs).2).1), (digits (readSign cs).2).2)
      else ([], e :: cs)

def readUnsigned (sign : List Char) (cs : List Char) : Option (Value × List Char) := do
  let (whole, rest) ← readWhole cs
  let (fraction, rest) := readFraction rest
  let (exponent, rest) := readExponent rest
  if fraction = [] ∧ exponent = [] then
    let n : ℤ := Nat.ofDigitChars 10 whole 0
    return (.int (if sign = [] then n else -n), rest)
  else return (.float (sign ++ whole ++ fraction ++ exponent), rest)

def readNumber : List Char → Option (Value × List Char)
  | '-' :: cs => readUnsigned ['-'] cs
  | cs => readUnsigned [] cs

/-- What is written as a word, the three floats that are none included. -/
def words : List (List Char × Value) :=
  [("null".toList, .null), ("true".toList, .bool true), ("false".toList, .bool false),
    ("NaN".toList, .float "NaN".toList), ("Infinity".toList, .float "Infinity".toList),
    ("-Infinity".toList, .float "-Infinity".toList)]

def readWord (cs : List Char) : Option (Value × List Char) :=
  words.findSome? fun (word, v) =>
    if word.isPrefixOf cs then some (v, cs.drop word.length) else none

/-- The text of a float: a number with a fraction or an exponent, or a word for none. -/
def isFloat (literal : List Char) : Bool :=
  match readNumber literal with
  | some (.float number, []) => number == literal
  | _ => ["NaN".toList, "Infinity".toList, "-Infinity".toList].contains literal

abbrev FloatText := { literal : List Char // isFloat literal = true }

/-! ## Values -/

def isBlank (c : Char) : Bool := c = ' ' || c = '\t' || c = '\n' || c = '\r'

def skip (cs : List Char) : List Char := cs.dropWhile isBlank

section Sequences

variable {α : Type} (item : List Char → Option (α × List Char)) (close : Char)

/-- Behind an item: more of them, or the end. -/
def readMore : ℕ → List Char → Option (List α × List Char)
  | 0, _ => none
  | n + 1, cs =>
      match skip cs with
      | [] => none
      | c :: cs =>
          if c = close then some ([], cs)
          else if c = ',' then do
            let (v, rest) ← item (skip cs)
            let (vs, rest) ← readMore n rest
            return (v :: vs, rest)
          else none

/-- Behind the opening bracket. -/
def readSequence (cs : List Char) : Option (List α × List Char) :=
  match skip cs with
  | [] => none
  | c :: cs =>
      if c = close then some ([], cs)
      else do
        let (v, rest) ← item (c :: cs)
        let (vs, rest) ← readMore item close (rest.length + 1) rest
        return (v :: vs, rest)

/-- A key, a colon and what `item` reads. -/
def readMember : List Char → Option ((String × α) × List Char)
  | '"' :: cs => do
      let (key, rest) ← readString cs
      match skip rest with
      | ':' :: rest =>
          let (v, rest) ← item (skip rest)
          return ((key, v), rest)
      | _ => none
  | _ => none

end Sequences

/-- A value nested no deeper than the fuel. -/
def readValue : ℕ → List Char → Option (Value × List Char)
  | 0, _ => none
  | _ + 1, '"' :: cs => do
      let (s, rest) ← readString cs
      return (.str s, rest)
  | n + 1, '[' :: cs => do
      let (items, rest) ← readSequence (readValue n) ']' cs
      return (.arr items, rest)
  | n + 1, '{' :: cs => do
      let (members, rest) ← readSequence (readMember (readValue n)) '}' cs
      return (.obj members, rest)
  | _ + 1, cs => (readNumber cs).orElse fun _ => readWord cs

/-- `json.loads` of a text. -/
def loads (text : List Char) : Option Value := do
  let (v, rest) ← readValue (text.length + 1) (skip text)
  if skip rest = [] then return v else none

/-! ## Writing -/

/-- Where the blanks go, at each depth. -/
structure Layout where
  afterOpen : ℕ → List Char
  afterComma : ℕ → List Char
  beforeClose : ℕ → List Char
  afterColon : List Char
  blank_afterOpen : ∀ d, ∀ c ∈ afterOpen d, isBlank c = true
  blank_afterComma : ∀ d, ∀ c ∈ afterComma d, isBlank c = true
  blank_beforeClose : ∀ d, ∀ c ∈ beforeClose d, isBlank c = true
  blank_afterColon : ∀ c ∈ afterColon, isBlank c = true

/-- `json.dumps(value)` -/
def compact : Layout where
  afterOpen _ := []
  afterComma _ := [' ']
  beforeClose _ := []
  afterColon := [' ']
  blank_afterOpen := by simp
  blank_afterComma := by simp [isBlank]
  blank_beforeClose := by simp
  blank_afterColon := by simp [isBlank]

def newline (n : ℕ) : List Char := '\n' :: List.replicate n ' '

theorem blank_newline (n : ℕ) : ∀ c ∈ newline n, isBlank c = true := by
  intro c hc
  rcases List.mem_cons.mp hc with rfl | hc
  · rfl
  · rw [List.eq_of_mem_replicate hc]
    rfl

/-- `json.dumps(value, indent=width)` -/
def indented (width : ℕ) : Layout where
  afterOpen d := newline (width * (d + 1))
  afterComma d := newline (width * (d + 1))
  beforeClose d := newline (width * d)
  afterColon := [' ']
  blank_afterOpen _ := blank_newline _
  blank_afterComma _ := blank_newline _
  blank_beforeClose _ := blank_newline _
  blank_afterColon := by simp [isBlank]

def container (layout : Layout) (d : ℕ) (opening closing : Char) : List (List Char) → List Char
  | [] => [opening, closing]
  | text :: texts =>
      opening :: (layout.afterOpen d ++ (text ++
        ((texts.flatMap fun text => ',' :: (layout.afterComma d ++ text)) ++
          (layout.beforeClose d ++ [closing]))))

def writeInt : ℤ → List Char
  | .ofNat n => Nat.toDigits 10 n
  | .negSucc n => '-' :: Nat.toDigits 10 (n + 1)

def writeMember (layout : Layout) (key : String) (text : List Char) : List Char :=
  quote key ++ ':' :: (layout.afterColon ++ text)

mutual

def write (layout : Layout) (d : ℕ) : Value → List Char
  | .null => "null".toList
  | .bool true => "true".toList
  | .bool false => "false".toList
  | .int n => writeInt n
  | .float literal => literal
  | .str s => quote s
  | .arr items => container layout d '[' ']' (writeItems layout (d + 1) items)
  | .obj members => container layout d '{' '}' (writeMembers layout (d + 1) members)

def writeItems (layout : Layout) (d : ℕ) : List Value → List (List Char)
  | [] => []
  | v :: vs => write layout d v :: writeItems layout d vs

def writeMembers (layout : Layout) (d : ℕ) : List (String × Value) → List (List Char)
  | [] => []
  | (key, v) :: members =>
      writeMember layout key (write layout d v) :: writeMembers layout d members

end

/-- `json.dumps` -/
def dumps (layout : Layout) (v : Value) : List Char := write layout 0 v

example : String.ofList (dumps (indented 2) (.obj [("a", .arr [.int 1, .null]), ("b", .str "é")])) =
    "\x7b\n  \"a\": [\n    1,\n    null\n  ],\n  \"b\": \"\\u00e9\"\n\x7d" := by decide +kernel

/-! ## Reading back what was written -/

/-- Nothing that would go on with a number. -/
def Delimits (rest : List Char) : Prop :=
  ∀ c ∈ rest.head?, c.isDigit = false ∧ c ≠ '.' ∧ c ≠ 'e' ∧ c ≠ 'E'

theorem delimits_nil : Delimits [] := nofun

theorem delimits_cons {c : Char} (h : c.isDigit = false ∧ c ≠ '.' ∧ c ≠ 'e' ∧ c ≠ 'E')
    (cs : List Char) : Delimits (c :: cs) := by
  rintro _ ⟨⟩
  exact h

theorem delimits_of_blank {blanks rest : List Char} (hblanks : ∀ c ∈ blanks, isBlank c = true)
    (hrest : Delimits rest) : Delimits (blanks ++ rest) := by
  cases blanks with
  | nil => exact hrest
  | cons c cs =>
      have hc := hblanks c List.mem_cons_self
      simp only [isBlank, Bool.or_eq_true, decide_eq_true_eq] at hc
      rcases hc with ((rfl | rfl) | rfl) | rfl <;> exact delimits_cons (by decide) _

/-! ### Numbers -/

theorem digits_append {ds rest : List Char} (hds : ∀ c ∈ ds, c.isDigit = true)
    (hrest : Delimits rest) : digits (ds ++ rest) = (ds, rest) := by
  have hstops : ∀ c ∈ rest.head?, c.isDigit = false := fun c hc => (hrest c hc).1
  rw [digits, List.takeWhile_append_of_pos hds, List.dropWhile_append_of_pos hds]
  cases rest with
  | nil => simp
  | cons c rest =>
      have hc := hstops c rfl
      rw [List.takeWhile_cons_of_neg (by rw [hc]; exact Bool.false_ne_true),
        List.dropWhile_cons_of_neg (by rw [hc]; exact Bool.false_ne_true), List.append_nil]

theorem head_toDigits_ne_zero {n : ℕ} (hn : 0 < n) :
    ∃ c cs, Nat.toDigits 10 n = c :: cs ∧ c ≠ '0' := by
  induction n using Nat.strong_induction_on with
  | _ n ih =>
      rw [Nat.toDigits_eq_if (by decide)]
      split_ifs with hsmall
      · refine ⟨_, _, rfl, ?_⟩
        interval_cases n <;> decide
      · obtain ⟨c, cs, hcs, hc⟩ := ih (n / 10) (Nat.div_lt_self hn (by decide)) (by omega)
        exact ⟨c, cs ++ [Nat.digitChar (n % 10)], by rw [hcs, List.cons_append], hc⟩

theorem readWhole_toDigits (n : ℕ) {rest : List Char} (hrest : Delimits rest) :
    readWhole (Nat.toDigits 10 n ++ rest) = some (Nat.toDigits 10 n, rest) := by
  rcases Nat.eq_zero_or_pos n with rfl | hn
  · rfl
  · obtain ⟨c, cs, hcs, hc⟩ := head_toDigits_ne_zero hn
    have hdigits : ∀ d ∈ Nat.toDigits 10 n, d.isDigit = true :=
      fun d hd => Nat.isDigit_of_mem_toDigits (by decide) (by decide) hd
    have hread := digits_append hdigits hrest
    rw [hcs] at hdigits hread ⊢
    rw [List.cons_append] at hread ⊢
    rw [readWhole, if_pos (hdigits c List.mem_cons_self), hread]
    exact hc

theorem readFraction_of_delimits {rest : List Char} (hrest : Delimits rest) :
    readFraction rest = ([], rest) := by
  cases rest with
  | nil => rfl
  | cons c rest =>
      have hc := (hrest c rfl).2.1
      unfold readFraction
      split
      · rename_i heq
        exact absurd (List.cons.inj heq).1 hc
      · rfl

theorem readExponent_of_delimits {rest : List Char} (hrest : Delimits rest) :
    readExponent rest = ([], rest) := by
  cases rest with
  | nil => rfl
  | cons c rest =>
      have hc := (hrest c rfl).2.2
      rw [readExponent, if_neg]
      rintro ⟨he | he, -⟩
      · exact hc.1 he
      · exact hc.2 he

theorem readUnsigned_toDigits (sign : List Char) (n : ℕ) {rest : List Char}
    (hrest : Delimits rest) : readUnsigned sign (Nat.toDigits 10 n ++ rest) =
      some (.int (if sign = [] then (n : ℤ) else -(n : ℤ)), rest) := by
  simp only [readUnsigned, readWhole_toDigits n hrest, readFraction_of_delimits hrest,
    readExponent_of_delimits hrest, Option.bind_eq_bind, Option.bind_some, and_self, if_true,
    Nat.ofDigitChars_ten_toDigits, Option.pure_def]

theorem readNumber_writeInt (n : ℤ) {rest : List Char} (hrest : Delimits rest) :
    readNumber (writeInt n ++ rest) = some (.int n, rest) := by
  cases n with
  | ofNat n =>
      have hminus : ∀ cs, Nat.toDigits 10 n ++ rest ≠ '-' :: cs := by
        intro cs hcs
        have hread := readUnsigned_toDigits [] n hrest
        rw [hcs] at hread
        cases hread
      unfold readNumber
      split
      · rename_i cs heq
        exact absurd heq (hminus cs)
      · exact readUnsigned_toDigits [] n hrest
  | negSucc n => exact readUnsigned_toDigits ['-'] (n + 1) hrest

/-! ### Floats -/

theorem digits_rest {rest : List Char} (hrest : Delimits rest) (cs : List Char) :
    digits (cs ++ rest) = ((digits cs).1, (digits cs).2 ++ rest) := by
  induction cs with
  | nil =>
      have hnone : digits ([] ++ rest) = ([], rest) := digits_append nofun hrest
      rwa [List.nil_append] at hnone
  | cons c cs ih =>
      rw [digits, digits, Prod.mk.injEq] at ih
      rw [List.cons_append, digits, digits]
      cases hc : c.isDigit with
      | true => simp only [List.takeWhile_cons, List.dropWhile_cons, hc, if_true, ih]
      | false => simp [hc]

theorem readWhole_rest {cs whole tail rest : List Char} (h : readWhole cs = some (whole, tail))
    (hrest : Delimits rest) : readWhole (cs ++ rest) = some (whole, tail ++ rest) := by
  cases cs with
  | nil => cases h
  | cons c cs =>
      by_cases hzero : c = '0'
      · subst hzero
        obtain ⟨rfl, rfl⟩ := Prod.mk.inj (Option.some.inj h)
        rfl
      · rw [readWhole] at h
        · split_ifs at h with hdigit
          rw [List.cons_append, readWhole, if_pos hdigit, ← List.cons_append, digits_rest hrest,
            Option.some.inj h]
          exact hzero
        · exact hzero

theorem readFraction_rest {rest : List Char} (hrest : Delimits rest) (cs : List Char) :
    readFraction (cs ++ rest) = ((readFraction cs).1, (readFraction cs).2 ++ rest) := by
  cases cs with
  | nil => exact readFraction_of_delimits hrest
  | cons c cs =>
      by_cases hpoint : c = '.'
      · subst hpoint
        rw [List.cons_append, readFraction, readFraction, digits_rest hrest]
        split_ifs <;> rfl
      · rw [List.cons_append, readFraction, readFraction]
        · rfl
        all_goals exact fun cs' h => hpoint (List.cons.inj h).1

theorem readSign_rest {cs : List Char} (hcs : cs ≠ []) (rest : List Char) :
    readSign (cs ++ rest) = ((readSign cs).1, (readSign cs).2 ++ rest) := by
  obtain ⟨c, cs, rfl⟩ := List.exists_cons_of_ne_nil hcs
  rw [List.cons_append, readSign, readSign]
  split_ifs <;> rfl

theorem readExponent_rest {cs exponent rest : List Char} (h : readExponent cs = (exponent, []))
    (hrest : Delimits rest) : readExponent (cs ++ rest) = (exponent, rest) := by
  cases cs with
  | nil =>
      obtain rfl : [] = exponent := (Prod.mk.inj h).1
      exact readExponent_of_delimits hrest
  | cons e cs =>
      rw [readExponent] at h
      split_ifs at h with he
      · have hcs : cs ≠ [] := by
          rintro rfl
          exact he.2 rfl
        obtain ⟨hexponent, htail⟩ := Prod.mk.inj h
        rw [List.cons_append, readExponent, readSign_rest hcs, digits_rest hrest, if_pos he,
          hexponent, htail, List.nil_append]
      · cases (Prod.mk.inj h).2

theorem readUnsigned_rest {sign cs rest : List Char} {v : Value}
    (h : readUnsigned sign cs = some (v, [])) (hrest : Delimits rest) :
    readUnsigned sign (cs ++ rest) = some (v, rest) := by
  obtain ⟨⟨whole, tail⟩, hwhole, h⟩ := Option.bind_eq_some_iff.mp h
  by_cases hint : (readFraction tail).1 = [] ∧ (readExponent (readFraction tail).2).1 = []
  · simp only [if_pos hint] at h
    obtain ⟨rfl, hend⟩ := Prod.mk.inj (Option.some.inj h)
    have hexponent := readExponent_rest (Prod.ext rfl hend) hrest
    simp only [readUnsigned, readWhole_rest hwhole hrest, readFraction_rest hrest, hexponent,
      Option.bind_eq_bind, Option.bind_some, if_pos hint]
    rfl
  · simp only [if_neg hint] at h
    obtain ⟨rfl, hend⟩ := Prod.mk.inj (Option.some.inj h)
    have hexponent := readExponent_rest (Prod.ext rfl hend) hrest
    simp only [readUnsigned, readWhole_rest hwhole hrest, readFraction_rest hrest, hexponent,
      Option.bind_eq_bind, Option.bind_some, if_neg hint]
    rfl

theorem readNumber_rest {cs rest : List Char} {v : Value} (h : readNumber cs = some (v, []))
    (hrest : Delimits rest) : readNumber (cs ++ rest) = some (v, rest) := by
  cases cs with
  | nil => cases h
  | cons c cs =>
      by_cases hminus : c = '-'
      · subst hminus
        exact readUnsigned_rest h hrest
      · rw [readNumber] at h
        · rw [List.cons_append, readNumber, ← List.cons_append]
          · exact readUnsigned_rest h hrest
          · exact fun cs' heq => hminus (List.cons.inj heq).1
        · exact fun cs' heq => hminus (List.cons.inj heq).1

/-! ### Sequences -/

theorem skip_blank {blanks : List Char} (h : ∀ c ∈ blanks, isBlank c = true) (cs : List Char) :
    skip (blanks ++ cs) = skip cs := List.dropWhile_append_of_pos h

/-- What a reader has to find at the start of an item. -/
def Starts (text : List Char) : Prop :=
  ∃ c cs, text = c :: cs ∧ isBlank c = false ∧ c ≠ ']' ∧ c ≠ '}'

theorem Starts.skip {text : List Char} (h : Starts text) (rest : List Char) :
    skip (text ++ rest) = text ++ rest := by
  obtain ⟨c, cs, rfl, hc, -⟩ := h
  exact List.dropWhile_cons_of_neg (by rw [hc]; exact Bool.false_ne_true)

/-- `item` reads `text` as `v`, whatever comes behind it that delimits it. -/
def Reads {α : Type} (item : List Char → Option (α × List Char)) (text : List Char) (v : α) :
    Prop :=
  Starts text ∧ ∀ rest, Delimits rest → item (text ++ rest) = some (v, rest)

section Sequences

variable {α : Type} {item : List Char → Option (α × List Char)} {close : Char}

/-- A closing bracket. -/
def IsClosing (close : Char) : Prop := close = ']' ∨ close = '}'

theorem IsClosing.delimits (h : IsClosing close) (cs : List Char) : Delimits (close :: cs) := by
  rcases h with rfl | rfl <;> exact delimits_cons (by decide) cs

theorem IsClosing.skip (h : IsClosing close) (cs : List Char) :
    skip (close :: cs) = close :: cs := by
  rcases h with rfl | rfl <;> rfl

theorem length_le_flatMap {f : List Char → List Char} (hf : ∀ text, 0 < (f text).length)
    (texts : List (List Char)) : texts.length ≤ (texts.flatMap f).length := by
  induction texts with
  | nil => exact le_rfl
  | cons text texts ih =>
      have htext := hf text
      rw [List.flatMap_cons, List.length_append, List.length_cons]
      omega

theorem delimits_more {texts : List (List Char)} {gap gap' : List Char}
    (hgap' : ∀ c ∈ gap', isBlank c = true) (hclose : IsClosing close) (rest : List Char) :
    Delimits ((texts.flatMap fun text => ',' :: (gap ++ text)) ++ (gap' ++ close :: rest)) := by
  cases texts with
  | nil =>
      rw [List.flatMap_nil, List.nil_append]
      exact delimits_of_blank hgap' (hclose.delimits rest)
  | cons text texts => exact delimits_cons (by decide) _

theorem readMore_texts {texts : List (List Char)} {vs : List α}
    (h : List.Forall₂ (Reads item) texts vs) {gap gap' : List Char}
    (hgap : ∀ c ∈ gap, isBlank c = true) (hgap' : ∀ c ∈ gap', isBlank c = true)
    (hclose : IsClosing close) (rest : List Char) : ∀ n, texts.length < n →
    readMore item close n
      ((texts.flatMap fun text => ',' :: (gap ++ text)) ++ (gap' ++ close :: rest)) =
        some (vs, rest) := by
  induction h with
  | nil =>
      intro n hn
      obtain ⟨n, rfl⟩ := Nat.exists_eq_add_of_lt hn
      rw [List.flatMap_nil, List.nil_append, readMore, skip_blank hgap', hclose.skip]
      exact if_pos rfl
  | @cons text v texts vs hread _ ih =>
      intro n hn
      obtain ⟨n, rfl⟩ := Nat.exists_eq_add_of_lt hn
      have hcomma : ',' ≠ close := by
        rcases hclose with rfl | rfl <;> decide
      have hmore := ih (texts.length + 1 + n) (by omega)
      rw [List.flatMap_cons, List.cons_append, List.append_assoc, List.cons_append, readMore]
      show (if ',' = close then _ else _) = _
      rw [if_neg hcomma, if_pos rfl, List.append_assoc, skip_blank hgap, List.append_assoc,
        hread.1.skip,
        hread.2 _ (delimits_more hgap' hclose rest)]
      simp only [Option.bind_eq_bind, Option.bind_some]
      rw [List.length_cons, hmore]
      rfl

/-- A container is read back when its items are. -/
theorem readSequence_container {layout : Layout} {d : ℕ} {opening : Char}
    {texts : List (List Char)} {vs : List α} (h : List.Forall₂ (Reads item) texts vs)
    (hclose : IsClosing close) (rest : List Char) :
    ∃ body, container layout d opening close texts ++ rest = opening :: body ∧
      readSequence item close body = some (vs, rest) := by
  cases h with
  | nil =>
      refine ⟨close :: rest, rfl, ?_⟩
      rw [readSequence, hclose.skip]
      exact if_pos rfl
  | @cons text v texts vs hread htexts =>
      have hgap := layout.blank_afterComma d
      have hgap' := layout.blank_beforeClose d
      refine ⟨layout.afterOpen d ++ (text ++
        ((texts.flatMap fun text => ',' :: (layout.afterComma d ++ text)) ++
          (layout.beforeClose d ++ close :: rest))), by simp [container], ?_⟩
      rw [readSequence, skip_blank (layout.blank_afterOpen d), hread.1.skip]
      have hmore : Delimits ((texts.flatMap fun text => ',' :: (layout.afterComma d ++ text)) ++
          (layout.beforeClose d ++ close :: rest)) := delimits_more hgap' hclose rest
      have hitem := hread.2 _ hmore
      obtain ⟨c, cs, rfl, -, hsquare, hcurly⟩ := hread.1
      have hne : c ≠ close := by
        rcases hclose with rfl | rfl
        · exact hsquare
        · exact hcurly
      rw [List.cons_append] at hitem ⊢
      show (if c = close then _ else _) = _
      rw [if_neg hne, hitem]
      simp only [Option.bind_eq_bind, Option.bind_some]
      rw [readMore_texts htexts hgap hgap' hclose rest]
      · rfl
      · have hcommas := length_le_flatMap (f := fun text => ',' :: (layout.afterComma d ++ text))
          (fun _ => Nat.succ_pos _) texts
        rw [List.length_append]
        omega

end Sequences

/-! ### Values -/

/-- Every float in it is one. -/
inductive Plain : Value → Prop
  | null : Plain .null
  | bool (b : Bool) : Plain (.bool b)
  | int (n : ℤ) : Plain (.int n)
  | float (literal : FloatText) : Plain (.float literal.val)
  | str (s : String) : Plain (.str s)
  | arr {items : List Value} : (∀ v ∈ items, Plain v) → Plain (.arr items)
  | obj {members : List (String × Value)} : (∀ m ∈ members, Plain m.2) → Plain (.obj members)

theorem writeItems_eq (layout : Layout) (d : ℕ) (items : List Value) :
    writeItems layout d items = items.map (write layout d) := by
  induction items with
  | nil => rfl
  | cons v items ih => rw [writeItems, ih, List.map_cons]

theorem writeMembers_eq (layout : Layout) (d : ℕ) (members : List (String × Value)) :
    writeMembers layout d members =
      members.map fun m => writeMember layout m.1 (write layout d m.2) := by
  induction members with
  | nil => rfl
  | cons m members ih => rw [writeMembers, ih, List.map_cons]

/-- An item is shorter than its container. -/
theorem length_lt_container {layout : Layout} {d : ℕ} {opening closing : Char}
    {texts : List (List Char)} {text : List Char} (h : text ∈ texts) :
    text.length < (container layout d opening closing texts).length := by
  cases texts with
  | nil => cases h
  | cons first texts =>
      rw [container]
      rcases List.mem_cons.mp h with rfl | h
      · simp only [List.length_cons, List.length_append]
        omega
      · have hsub := (List.sublist_flatten_of_mem (List.mem_map_of_mem
          (f := fun text => ',' :: (layout.afterComma d ++ text)) h)).length_le
        simp only [List.length_cons, List.length_append, List.flatMap] at hsub ⊢
        omega

theorem starts_container (layout : Layout) (d : ℕ) {opening closing : Char}
    (hopening : opening = '[' ∨ opening = '{') (texts : List (List Char)) :
    Starts (container layout d opening closing texts) := by
  have hstart : ∀ cs, Starts (opening :: cs) := by
    intro cs
    rcases hopening with rfl | rfl <;> exact ⟨_, cs, rfl, by decide⟩
  cases texts with
  | nil => exact hstart _
  | cons text texts => exact hstart _

/-- A text that starts none of the three bracketed forms is a number or a word. -/
theorem readValue_bare {n : ℕ} {c : Char} (hquote : c ≠ '"') (hsquare : c ≠ '[') (hcurly : c ≠ '{')
    (cs : List Char) :
    readValue (n + 1) (c :: cs) = (readNumber (c :: cs)).orElse fun _ => readWord (c :: cs) := by
  rw [readValue]
  · exact fun cs' h => hquote (List.cons.inj h).1
  · exact fun cs' h => hsquare (List.cons.inj h).1
  · exact fun cs' h => hcurly (List.cons.inj h).1

theorem reads_member {item : List Char → Option (Value × List Char)} {layout : Layout}
    {key : String} {text : List Char} {v : Value} (h : Reads item text v) :
    Reads (readMember item) (writeMember layout key text) (key, v) := by
  refine ⟨⟨'"', _, rfl, by decide⟩, fun rest hrest => ?_⟩
  have hkey : writeMember layout key text ++ rest = '"' :: (key.toList.flatMap escape ++
      '"' :: (':' :: (layout.afterColon ++ (text ++ rest)))) := by
    simp [writeMember, quote]
  rw [hkey, readMember, readString_quote]
  show (do
    let (v, rest) ← item (skip (layout.afterColon ++ (text ++ rest)))
    return ((key, v), rest)) = _
  rw [skip_blank layout.blank_afterColon, h.1.skip, h.2 rest hrest]
  rfl

/-- A number starts with a digit or a sign. -/
theorem head_of_readNumber {cs rest : List Char} {v : Value} (h : readNumber cs = some (v, rest)) :
    ∃ c cs', cs = c :: cs' ∧ (c.isDigit = true ∨ c = '-') := by
  cases cs with
  | nil => cases h
  | cons c cs' =>
      refine ⟨c, cs', rfl, ?_⟩
      by_cases hminus : c = '-'
      · exact Or.inr hminus
      · rw [readNumber] at h
        · obtain ⟨⟨whole, tail⟩, hwhole, -⟩ := Option.bind_eq_some_iff.mp h
          by_cases hzero : c = '0'
          · exact Or.inl (by rw [hzero]; rfl)
          · rw [readWhole] at hwhole
            · split_ifs at hwhole with hdigit
              exact Or.inl hdigit
            · exact hzero
        · exact fun cs'' heq => hminus (List.cons.inj heq).1

/-- A number is read for itself. -/
theorem reads_number {text : List Char} {v : Value} (h : readNumber text = some (v, []))
    (n : ℕ) : Reads (readValue (n + 1)) text v := by
  obtain ⟨c, cs, rfl, hc⟩ := head_of_readNumber h
  have hne : ∀ c', c'.isDigit = false → c' ≠ '-' → c ≠ c' := by
    rintro c' hdigit hminus rfl
    rcases hc with hc | hc
    · rw [hdigit] at hc
      cases hc
    · exact hminus hc
  have hblank : isBlank c = false := by
    simp [isBlank, hne ' ' rfl (by decide), hne '\t' rfl (by decide), hne '\n' rfl (by decide),
      hne '\r' rfl (by decide)]
  refine ⟨⟨c, cs, rfl, hblank, hne _ rfl (by decide), hne _ rfl (by decide)⟩, ?_⟩
  intro rest hrest
  have hnumber := readNumber_rest h hrest
  rw [List.cons_append] at hnumber ⊢
  rw [readValue_bare (hne _ rfl (by decide)) (hne _ rfl (by decide)) (hne _ rfl (by decide)),
    hnumber]
  rfl

theorem reads_float (literal : FloatText) (n : ℕ) :
    Reads (readValue (n + 1)) literal.val (.float literal.val) := by
  obtain ⟨literal, hfloat⟩ := literal
  unfold isFloat at hfloat
  split at hfloat
  · rename_i number hnumber
    obtain rfl := eq_of_beq hfloat
    exact reads_number hnumber n
  · rw [List.contains_iff_mem] at hfloat
    rcases List.mem_cons.mp hfloat with rfl | hfloat
    · exact ⟨⟨'N', _, rfl, by decide⟩, fun rest _ => rfl⟩
    · rcases List.mem_pair.mp hfloat with rfl | rfl
      · exact ⟨⟨'I', _, rfl, by decide⟩, fun rest _ => rfl⟩
      · exact ⟨⟨'-', _, rfl, by decide⟩, fun rest _ => rfl⟩

/-- **A written value is read back**, with fuel for its length. -/
theorem reads_write {v : Value} (hv : Plain v) (layout : Layout) : ∀ d n,
    (write layout d v).length ≤ n → Reads (readValue (n + 1)) (write layout d v) v := by
  induction hv with
  | null => exact fun d n _ => ⟨⟨'n', _, rfl, by decide⟩, fun rest _ => rfl⟩
  | bool b =>
      intro d n _
      cases b with
      | true => exact ⟨⟨'t', _, rfl, by decide⟩, fun rest _ => rfl⟩
      | false => exact ⟨⟨'f', _, rfl, by decide⟩, fun rest _ => rfl⟩
  | int m =>
      intro d n _
      have hnumber := readNumber_writeInt m delimits_nil
      rw [List.append_nil] at hnumber
      exact reads_number hnumber n
  | float literal => exact fun d n _ => reads_float literal n
  | str s =>
      intro d n _
      refine ⟨⟨'"', _, rfl, by decide⟩, fun rest _ => ?_⟩
      rw [write, quote, List.cons_append, List.append_assoc, List.singleton_append, readValue,
        readString_quote]
      rfl
  | @arr items _ ih =>
      intro d n hn
      rw [write] at hn ⊢
      refine ⟨starts_container layout d (Or.inl rfl) _, fun rest _ => ?_⟩
      have hitems : List.Forall₂ (Reads (readValue n)) (writeItems layout (d + 1) items) items := by
        rw [writeItems_eq] at hn ⊢
        rw [List.forall₂_map_left_iff, List.forall₂_same]
        intro v hv
        have hshort := (length_lt_container (List.mem_map_of_mem hv)).trans_le hn
        obtain ⟨n, rfl⟩ := Nat.exists_eq_succ_of_ne_zero (Nat.ne_zero_of_lt hshort)
        exact ih v hv (d + 1) n (Nat.le_of_lt_succ hshort)
      have hsequence : ∃ body, container layout d '[' ']' _ ++ rest = '[' :: body ∧ _ :=
        readSequence_container hitems (Or.inl rfl) rest
      obtain ⟨body, hbody, hread⟩ := hsequence
      rw [hbody, readValue, hread]
      rfl
  | @obj members _ ih =>
      intro d n hn
      rw [write] at hn ⊢
      refine ⟨starts_container layout d (Or.inr rfl) _, fun rest _ => ?_⟩
      have hitems : List.Forall₂ (Reads (readMember (readValue n)))
          (writeMembers layout (d + 1) members) members := by
        rw [writeMembers_eq] at hn ⊢
        rw [List.forall₂_map_left_iff, List.forall₂_same]
        intro m hm
        have hshort := (length_lt_container (List.mem_map_of_mem hm)).trans_le hn
        have hvalue : (write layout (d + 1) m.2).length <
            (writeMember layout m.1 (write layout (d + 1) m.2)).length := by
          simp only [writeMember, List.length_append, List.length_cons]
          omega
        obtain ⟨n, rfl⟩ := Nat.exists_eq_succ_of_ne_zero (Nat.ne_zero_of_lt hshort)
        exact reads_member (ih m hm (d + 1) n (by omega))
      have hsequence : ∃ body, container layout d '{' '}' _ ++ rest = '{' :: body ∧ _ :=
        readSequence_container hitems (Or.inr rfl) rest
      obtain ⟨body, hbody, hread⟩ := hsequence
      rw [hbody, readValue, hread]
      rfl

/-- **What was written is read back**, in any layout and with blanks behind it. -/
theorem loads_dumps {v : Value} (hv : Plain v) (layout : Layout) {after : List Char}
    (hafter : ∀ c ∈ after, isBlank c = true) : loads (dumps layout v ++ after) = some v := by
  obtain ⟨hstarts, hread⟩ := reads_write hv layout 0 (dumps layout v ++ after).length (by
    rw [List.length_append]
    exact Nat.le_add_right _ _)
  have hrest : Delimits after := by
    have hblank := delimits_of_blank hafter delimits_nil
    rwa [List.append_nil] at hblank
  have hend : skip after = [] := by
    have hblank := skip_blank hafter []
    rwa [List.append_nil] at hblank
  rw [loads]
  show (do
    let (v, rest) ← readValue _ (skip (write layout 0 v ++ after))
    if skip rest = [] then return v else none) = _
  rw [hstarts.skip, hread after hrest]
  exact if_pos hend

end Base.Json
