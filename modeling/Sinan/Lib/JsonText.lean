import Sinan.Lib.Hex
import Sinan.Lib.Json

/-!
# The compact text of a JSON value

`text` writes a value without blanks, entries in the order they stand in, and `readText` reads such a
text back.  How a number is written is left to `NumberText`.  The main result is the round trip; it
follows that two values of one text are one value.
-/

namespace Sinan.Lib.Json

/-! ## strings -/

def escapeChar (c : Char) : List Char :=
  if c = '"' then ['\\', '"']
  else if c = '\\' then ['\\', '\\']
  else if c.toNat = 8 then ['\\', 'b']
  else if c.toNat = 12 then ['\\', 'f']
  else if c = '\n' then ['\\', 'n']
  else if c = '\r' then ['\\', 'r']
  else if c = '\t' then ['\\', 't']
  else if c.toNat < 32 then ['\\', 'u', '0', '0', hexDigit (c.toNat / 16), hexDigit (c.toNat % 16)]
  else [c]

/-- the letter behind a backslash -/
def readEscaped : Char → Option Char
  | '"' => some '"'
  | '\\' => some '\\'
  | '/' => some '/'
  | 'b' => some (Char.ofNat 8)
  | 'f' => some (Char.ofNat 12)
  | 'n' => some '\n'
  | 'r' => some '\r'
  | 't' => some '\t'
  | _ => none

def readChar : List Char → Option (Char × List Char)
  | '\\' :: 'u' :: a :: b :: c :: d :: rest => do
    let a ← hexValue a
    let b ← hexValue b
    let c ← hexValue c
    let d ← hexValue d
    return (Char.ofNat (((16 * a + b) * 16 + c) * 16 + d), rest)
  | '\\' :: c :: rest => (readEscaped c).map fun c => (c, rest)
  | c :: rest => some (c, rest)
  | [] => none

def stringText (s : String) : List Char := '"' :: (s.toList.flatMap escapeChar ++ ['"'])

/-- the letters up to the closing quote -/
def readString : Nat → List Char → Option (List Char × List Char)
  | 0, _ => none
  | _ + 1, '"' :: rest => some ([], rest)
  | n + 1, cs => do
    let (c, rest) ← readChar cs
    let (s, rest) ← readString n rest
    return (c :: s, rest)

theorem readChar_escapeChar (c : Char) (rest : List Char) :
    readChar (escapeChar c ++ rest) = some (c, rest) := by
  unfold escapeChar
  split_ifs with hquote hslash hb hf hn hr ht hcontrol
  · subst hquote; rfl
  · subst hslash; rfl
  · have : c = Char.ofNat 8 := by rw [← hb, Char.ofNat_toNat]
    subst this; rfl
  · have : c = Char.ofNat 12 := by rw [← hf, Char.ofNat_toNat]
    subst this; rfl
  · subst hn; rfl
  · subst hr; rfl
  · subst ht; rfl
  · have hhi := (hexDigit_spec (n := c.toNat / 16) (by omega)).1
    have hlo := (hexDigit_spec (n := c.toNat % 16) (by omega)).1
    have hzero : hexValue '0' = some 0 := rfl
    have hvalue : ((16 * 0 + 0) * 16 + c.toNat / 16) * 16 + c.toNat % 16 = c.toNat := by omega
    simp only [List.cons_append, List.nil_append, readChar, hhi, hlo, hzero, Option.bind_eq_bind,
      Option.bind_some, Option.pure_def, hvalue, Char.ofNat_toNat]
  · rw [List.singleton_append]
    unfold readChar
    split
    · rename_i heq
      exact absurd (List.cons.inj heq).1 hslash
    · rename_i heq
      exact absurd (List.cons.inj heq).1 hslash
    · rename_i heq
      obtain ⟨rfl, rfl⟩ := List.cons.inj heq
      rfl
    · rename_i heq
      cases heq

theorem escapeChar_head (c : Char) : ∃ d cs, escapeChar c = d :: cs ∧ d ≠ '"' := by
  unfold escapeChar
  split_ifs with hquote
  all_goals first
    | exact ⟨_, _, rfl, by decide⟩
    | exact ⟨_, _, rfl, hquote⟩

theorem length_le_escaped (s : List Char) : s.length ≤ (s.flatMap escapeChar).length := by
  induction s with
  | nil => exact Nat.le_refl 0
  | cons c s ih =>
    obtain ⟨d, cs, hc, -⟩ := escapeChar_head c
    rw [List.flatMap_cons, hc, List.length_append, List.length_cons, List.length_cons]
    omega

variable {n : Nat}

theorem readString_escaped {s : List Char} (h : s.length < n) (rest : List Char) :
    readString n (s.flatMap escapeChar ++ '"' :: rest) = some (s, rest) := by
  induction s generalizing n with
  | nil =>
    cases n with
    | zero => exact absurd h (Nat.not_lt_zero _)
    | succ n => rfl
  | cons c s ih =>
    cases n with
    | zero => exact absurd h (Nat.not_lt_zero _)
    | succ n =>
      obtain ⟨d, cs, hc, hquote⟩ := escapeChar_head c
      have hchar := readChar_escapeChar c (s.flatMap escapeChar ++ '"' :: rest)
      rw [hc, List.cons_append] at hchar
      have hrest := ih (Nat.lt_of_succ_lt_succ h)
      rw [List.flatMap_cons, hc, List.append_assoc, List.cons_append, readString]
      · simp only [hchar, hrest, Option.bind_eq_bind, Option.bind_some, Option.pure_def]
      · intro _ heq
        exact hquote (List.cons.inj heq).1

/-! ## sequences -/

/-- what may stand behind a value -/
def Ends (rest : List Char) : Prop := ∀ c ∈ rest.head?, c = ',' ∨ c = ']' ∨ c = '}'

section
variable {α : Type} (write : α → List Char) (read : List Char → Option (α × List Char))
  (close : Char)

def moreText : List α → List Char
  | [] => [close]
  | x :: xs => ',' :: (write x ++ moreText xs)

def seqText : List α → List Char
  | [] => [close]
  | x :: xs => write x ++ moreText write close xs

def readMore : Nat → List Char → Option (List α × List Char)
  | n + 1, ',' :: cs => do
    let (x, rest) ← read cs
    let (xs, rest) ← readMore n rest
    return (x :: xs, rest)
  | _ + 1, c :: cs => if c = close then some ([], cs) else none
  | _, _ => none

def readSeq (n : Nat) : List Char → Option (List α × List Char)
  | [] => none
  | c :: cs =>
    if c = close then some ([], cs)
    else do
      let (x, rest) ← read (c :: cs)
      let (xs, rest) ← readMore read close n rest
      return (x :: xs, rest)

end

section
variable {α : Type} {write : α → List Char} {read : List Char → Option (α × List Char)}
  {close : Char}

theorem moreText_ends (write : α → List Char) (hclose : close = ']' ∨ close = '}') (xs : List α) (rest : List Char) :
    Ends (moreText write close xs ++ rest) := by
  intro c hc
  cases xs with
  | nil =>
    cases hc
    exact .inr hclose
  | cons x xs =>
    cases hc
    exact .inl rfl

variable {xs : List α}

theorem length_le_moreText {x : α} (h : x ∈ xs) :
    (write x).length < (moreText write close xs).length := by
  induction xs with
  | nil => cases h
  | cons y xs ih =>
    rw [moreText, List.length_cons, List.length_append]
    rcases List.mem_cons.mp h with rfl | hx
    · omega
    · have hlt := ih hx
      omega

theorem length_le_seqText {x : α} (h : x ∈ xs) :
    (write x).length < (seqText write close xs).length := by
  cases xs with
  | nil => cases h
  | cons y xs =>
    have hpos : 0 < (moreText write close xs).length := by
      cases xs <;> exact Nat.succ_pos _
    rw [seqText, List.length_append]
    rcases List.mem_cons.mp h with rfl | hx
    · omega
    · have hlt : (write x).length < (moreText write close xs).length := length_le_moreText hx
      omega

theorem length_lt_moreText (write : α → List Char) (xs : List α) :
    xs.length < (moreText write close xs).length := by
  induction xs with
  | nil => exact Nat.zero_lt_one
  | cons x xs ih =>
    rw [moreText, List.length_cons, List.length_cons, List.length_append]
    omega

theorem length_lt_seqText (hhead : ∀ x ∈ xs, ∃ c cs, write x = c :: cs ∧ c ≠ close) :
    xs.length < (seqText write close xs).length := by
  cases xs with
  | nil => exact Nat.zero_lt_one
  | cons x xs =>
    obtain ⟨c, cs, hc, -⟩ := hhead x List.mem_cons_self
    have hmore : xs.length < (moreText write close xs).length := length_lt_moreText write xs
    rw [seqText, hc, List.length_cons, List.length_append, List.length_cons]
    omega

theorem readMore_moreText (hclose : close = ']' ∨ close = '}') {xs : List α} {n : Nat}
    (hfuel : xs.length < n)
    (hread : ∀ x ∈ xs, ∀ rest, Ends rest → read (write x ++ rest) = some (x, rest))
    (rest : List Char) :
    readMore read close n (moreText write close xs ++ rest) = some (xs, rest) := by
  induction xs generalizing n with
  | nil =>
    cases n with
    | zero => exact absurd hfuel (Nat.not_lt_zero _)
    | succ n => rcases hclose with rfl | rfl <;> rfl
  | cons x xs ih =>
    cases n with
    | zero => exact absurd hfuel (Nat.not_lt_zero _)
    | succ n =>
      have hx := hread x List.mem_cons_self _ (moreText_ends write hclose xs rest)
      have hxs := ih (Nat.lt_of_succ_lt_succ hfuel)
        fun y hy => hread y (List.mem_cons_of_mem x hy)
      simp only [moreText, List.cons_append, List.append_assoc, readMore, hx, hxs,
        Option.bind_eq_bind, Option.bind_some, Option.pure_def]

theorem readSeq_seqText (hclose : close = ']' ∨ close = '}') {xs : List α} {n : Nat}
    (hfuel : xs.length < n)
    (hread : ∀ x ∈ xs, ∀ rest, Ends rest → read (write x ++ rest) = some (x, rest))
    (hhead : ∀ x ∈ xs, ∃ c cs, write x = c :: cs ∧ c ≠ close) (rest : List Char) :
    readSeq read close n (seqText write close xs ++ rest) = some (xs, rest) := by
  cases xs with
  | nil => exact if_pos rfl
  | cons x xs =>
    obtain ⟨c, cs, hc, hne⟩ := hhead x List.mem_cons_self
    have hx := hread x List.mem_cons_self _ (moreText_ends write hclose xs rest)
    have hxs := readMore_moreText hclose (Nat.lt_of_succ_lt hfuel)
      (fun y hy => hread y (List.mem_cons_of_mem x hy)) rest
    rw [hc, List.cons_append] at hx
    simp only [seqText, hc, List.cons_append, List.append_assoc, readSeq, if_neg hne, hx, hxs,
      Option.bind_eq_bind, Option.bind_some, Option.pure_def]

end

/-! ## values -/

/-- how the numbers of a value are written and read -/
structure NumberText (N : Type) where
  write : N → List Char
  read : List Char → Option (N × List Char)
  head : ∀ n, ∃ c cs, write n = c :: cs ∧ (c = '-' ∨ c.isDigit = true)
  read_write : ∀ n rest, Ends rest → read (write n ++ rest) = some (n, rest)

section
variable {N : Type}

mutual

def text (number : N → List Char) : Json N → List Char
  | .null => ['n', 'u', 'l', 'l']
  | .bool true => ['t', 'r', 'u', 'e']
  | .bool false => ['f', 'a', 'l', 's', 'e']
  | .number n => number n
  | .string s => stringText s
  | .array [] => ['[', ']']
  | .array (x :: xs) => '[' :: (text number x ++ itemsText number xs)
  | .object [] => ['{', '}']
  | .object ((k, x) :: es) => '{' :: (stringText k ++ ':' :: text number x ++ entriesText number es)

def itemsText (number : N → List Char) : List (Json N) → List Char
  | [] => [']']
  | x :: xs => ',' :: (text number x ++ itemsText number xs)

def entriesText (number : N → List Char) : List (String × Json N) → List Char
  | [] => ['}']
  | (k, x) :: es => ',' :: (stringText k ++ ':' :: text number x ++ entriesText number es)

end

def entryText (number : N → List Char) (e : String × Json N) : List Char :=
  stringText e.1 ++ ':' :: text number e.2

def readEntry (n : Nat) (read : List Char → Option (Json N × List Char)) :
    List Char → Option ((String × Json N) × List Char)
  | '"' :: cs =>
    match readString n cs with
    | some (k, ':' :: rest) => (read rest).map fun (x, rest) => ((String.ofList k, x), rest)
    | _ => none
  | _ => none

def readText (number : List Char → Option (N × List Char)) :
    Nat → List Char → Option (Json N × List Char)
  | 0, _ => none
  | _ + 1, 'n' :: 'u' :: 'l' :: 'l' :: rest => some (.null, rest)
  | _ + 1, 't' :: 'r' :: 'u' :: 'e' :: rest => some (.bool true, rest)
  | _ + 1, 'f' :: 'a' :: 'l' :: 's' :: 'e' :: rest => some (.bool false, rest)
  | n + 1, '"' :: cs => (readString n cs).map fun (s, rest) => (.string (String.ofList s), rest)
  | n + 1, '[' :: cs => (readSeq (readText number n) ']' n cs).map fun (xs, rest) => (.array xs, rest)
  | n + 1, '{' :: cs =>
    (readSeq (readEntry n (readText number n)) '}' n cs).map fun (es, rest) => (.object es, rest)
  | _ + 1, cs => (number cs).map fun (n, rest) => (.number n, rest)

/-- the value of a whole text -/
def ofText (number : List Char → Option (N × List Char)) (s : List Char) : Option (Json N) :=
  match readText number s.length s with
  | some (v, []) => some v
  | _ => none

variable {number : N → List Char}

theorem itemsText_eq (xs : List (Json N)) : itemsText number xs = moreText (text number) ']' xs := by
  induction xs with
  | nil => rfl
  | cons x xs ih => rw [itemsText, moreText, ih]

theorem entriesText_eq (es : List (String × Json N)) :
    entriesText number es = moreText (entryText number) '}' es := by
  induction es with
  | nil => rfl
  | cons e es ih => rw [entriesText, moreText, entryText, ih]

theorem text_array (items : List (Json N)) :
    text number (.array items) = '[' :: seqText (text number) ']' items := by
  cases items with
  | nil => rfl
  | cons x xs => rw [text, seqText, itemsText_eq]

theorem text_object (entries : List (String × Json N)) :
    text number (.object entries) = '{' :: seqText (entryText number) '}' entries := by
  cases entries with
  | nil => rfl
  | cons e es => rw [text, seqText, entriesText_eq, entryText]

/-! ## the round trip -/

theorem digit_or_minus_ne {c d : Char} (h : c = '-' ∨ c.isDigit = true) (hd : d.isDigit = false)
    (hminus : d ≠ '-') : c ≠ d := by
  rintro rfl
  rcases h with rfl | hdigit
  · exact hminus rfl
  · rw [hd] at hdigit
    cases hdigit

theorem readText_number {read : List Char → Option (N × List Char)} {c : Char}
    (h : c = '-' ∨ c.isDigit = true) (n : Nat) (cs : List Char) :
    readText read (n + 1) (c :: cs) = (read (c :: cs)).map fun (n, rest) => (.number n, rest) := by
  have hne := fun d hd hminus => digit_or_minus_ne (d := d) h hd hminus
  rw [readText]
  · rintro rest heq
    exact hne 'n' rfl (by decide) (List.cons.inj heq).1
  · rintro rest heq
    exact hne 't' rfl (by decide) (List.cons.inj heq).1
  · rintro rest heq
    exact hne 'f' rfl (by decide) (List.cons.inj heq).1
  · rintro rest heq
    exact hne '"' rfl (by decide) (List.cons.inj heq).1
  · rintro rest heq
    exact hne '[' rfl (by decide) (List.cons.inj heq).1
  · rintro rest heq
    exact hne '{' rfl (by decide) (List.cons.inj heq).1

theorem text_head (t : NumberText N) (v : Json N) :
    ∃ c cs, text t.write v = c :: cs ∧ c ≠ ']' := by
  cases v with
  | null => exact ⟨_, _, rfl, by decide⟩
  | bool b => cases b <;> exact ⟨_, _, rfl, by decide⟩
  | number n =>
    obtain ⟨c, cs, hc, hnumber⟩ := t.head n
    exact ⟨c, cs, hc, digit_or_minus_ne hnumber rfl (by decide)⟩
  | string s => exact ⟨_, _, rfl, by decide⟩
  | array items => exact ⟨_, _, text_array items, by decide⟩
  | object entries => exact ⟨_, _, text_object entries, by decide⟩

theorem text_pos (t : NumberText N) (v : Json N) : 0 < (text t.write v).length := by
  obtain ⟨c, cs, hc, -⟩ := text_head t v
  rw [hc]
  exact Nat.succ_pos _

theorem readString_string {s : String} (h : (stringText s).length ≤ n + 1) (rest : List Char) :
    readString n (s.toList.flatMap escapeChar ++ ['"'] ++ rest) = some (s.toList, rest) := by
  have hlength := length_le_escaped s.toList
  rw [stringText, List.length_cons, List.length_append, List.length_singleton] at h
  rw [List.append_assoc]
  exact readString_escaped (by omega) rest

theorem readEntry_entryText {e : String × Json N} {read : List Char → Option (Json N × List Char)}
    (h : (entryText number e).length ≤ n) {rest : List Char}
    (hread : read (text number e.2 ++ rest) = some (e.2, rest)) :
    readEntry n read (entryText number e ++ rest) = some (e, rest) := by
  have hkey : (stringText e.1).length ≤ n + 1 := by
    rw [entryText, List.length_append] at h
    omega
  have hstring := readString_string hkey (':' :: (text number e.2 ++ rest))
  simp only [entryText, stringText, List.cons_append, List.append_assoc] at hstring ⊢
  rw [readEntry, hstring]
  show (read (text number e.2 ++ rest)).map _ = _
  rw [hread]
  show some ((String.ofList e.1.toList, e.2), rest) = _
  rw [String.ofList_toList]

theorem readText_text (t : NumberText N) (v : Json N) (h : (text t.write v).length ≤ n)
    {rest : List Char} (hrest : Ends rest) :
    readText t.read n (text t.write v ++ rest) = some (v, rest) := by
  obtain ⟨n, rfl⟩ := Nat.exists_eq_succ_of_ne_zero (Nat.ne_of_gt (Nat.lt_of_lt_of_le (text_pos t v) h))
  induction v generalizing n rest with
  | null => rfl
  | bool b => cases b <;> rfl
  | number m =>
    obtain ⟨c, cs, hc, hnumber⟩ := t.head m
    have hread := t.read_write m rest hrest
    rw [text, hc]
    rw [hc] at hread
    rw [List.cons_append] at hread ⊢
    rw [readText_number hnumber, hread]
    rfl
  | string s =>
    rw [text] at h ⊢
    rw [stringText, List.cons_append, readText, readString_string h]
    show some (Json.string (String.ofList s.toList), rest) = _
    rw [String.ofList_toList]
  | array items ih =>
    have hhead : ∀ x ∈ items, ∃ c cs, text t.write x = c :: cs ∧ c ≠ ']' :=
      fun x _ => text_head t x
    rw [text_array] at h ⊢
    have hlength := Nat.le_of_succ_le_succ h
    have hfuel := Nat.lt_of_lt_of_le (length_lt_seqText hhead) hlength
    have hread : ∀ x ∈ items, ∀ rest, Ends rest →
        readText t.read n (text t.write x ++ rest) = some (x, rest) := by
      intro x hx rest hends
      have hshort := Nat.lt_of_lt_of_le (length_le_seqText hx) hlength
      obtain ⟨m, rfl⟩ := Nat.exists_eq_succ_of_ne_zero (Nat.ne_zero_of_lt hshort)
      exact ih x hx hends m (Nat.le_of_lt hshort)
    rw [List.cons_append, readText, readSeq_seqText (.inl rfl) hfuel hread hhead]
    rfl
  | object entries ih =>
    have hhead : ∀ e ∈ entries, ∃ c cs, entryText t.write e = c :: cs ∧ c ≠ '}' :=
      fun e _ => ⟨_, _, rfl, by decide⟩
    rw [text_object] at h ⊢
    have hlength := Nat.le_of_succ_le_succ h
    have hfuel := Nat.lt_of_lt_of_le (length_lt_seqText hhead) hlength
    have hread : ∀ e ∈ entries, ∀ rest, Ends rest →
        readEntry n (readText t.read n) (entryText t.write e ++ rest) = some (e, rest) := by
      intro e he rest hends
      have hshort := Nat.lt_of_lt_of_le (length_le_seqText he) hlength
      obtain ⟨m, rfl⟩ := Nat.exists_eq_succ_of_ne_zero (Nat.ne_zero_of_lt hshort)
      have hvalue : (text t.write e.2).length ≤ m + 1 := by
        rw [entryText, List.length_append, List.length_cons] at hshort
        omega
      exact readEntry_entryText (Nat.le_of_lt hshort) (ih e he hends m hvalue)
    rw [List.cons_append, readText, readSeq_seqText (.inr rfl) hfuel hread hhead]
    rfl

theorem ofText_text (t : NumberText N) (v : Json N) : ofText t.read (text t.write v) = some v := by
  have hends : Ends ([] : List Char) := fun c hc => (nomatch hc)
  have hread := readText_text t v (Nat.le_refl _) hends
  rw [List.append_nil] at hread
  rw [ofText, hread]

end

/-! ## integers -/

def readDigits (cs : List Char) : Option (Nat × List Char) :=
  match cs.takeWhile Char.isDigit with
  | [] => none
  | ds => some (Nat.ofDigitChars 10 ds 0, cs.dropWhile Char.isDigit)

def readInt : List Char → Option (Int × List Char)
  | '-' :: cs => (readDigits cs).map fun (n, rest) => (-(n : Int), rest)
  | cs => (readDigits cs).map fun (n, rest) => ((n : Int), rest)

theorem not_digit_of_ends {rest : List Char} (h : Ends rest) : ∀ c ∈ rest.head?, c.isDigit = false := by
  intro c hc
  rcases h c hc with rfl | rfl | rfl <;> rfl

theorem readDigits_natText (n : Nat) {rest : List Char} (h : Ends rest) :
    readDigits (n.repr.toList ++ rest) = some (n, rest) := by
  have hdigits : ∀ c ∈ n.repr.toList, c.isDigit = true := fun c hc => isDigit_of_mem_natText hc
  have hstop : rest.takeWhile Char.isDigit = [] ∧ rest.dropWhile Char.isDigit = rest := by
    cases rest with
    | nil => exact ⟨rfl, rfl⟩
    | cons c rest =>
      have hc := not_digit_of_ends h c rfl
      exact ⟨List.takeWhile_cons_of_neg (by rw [hc]; decide),
        List.dropWhile_cons_of_neg (by rw [hc]; decide)⟩
  have htake : (n.repr.toList ++ rest).takeWhile Char.isDigit = n.repr.toList := by
    rw [List.takeWhile_append_of_pos hdigits, hstop.1, List.append_nil]
  have hdrop : (n.repr.toList ++ rest).dropWhile Char.isDigit = rest := by
    rw [List.dropWhile_append_of_pos hdigits, hstop.2]
  have hvalue : Nat.ofDigitChars 10 n.repr.toList 0 = n := by
    rw [Nat.toList_repr, Nat.ofDigitChars_ten_toDigits]
  obtain ⟨c, cs, hlist, -⟩ := natText_head n
  rw [readDigits, htake, hdrop]
  split
  · rename_i hnil
    rw [hlist] at hnil
    cases hnil
  · rw [hvalue]

/-- integers in decimal -/
def intText : NumberText Int where
  write n := (toString n).toList
  read := readInt
  head := by
    intro n
    rw [Int.toString_eq_repr, Int.repr_eq_if]
    split
    · obtain ⟨c, cs, hlist, hdigit⟩ := natText_head n.toNat
      exact ⟨c, cs, hlist, .inr hdigit⟩
    · exact ⟨'-', _, toList_minus_append _, .inl rfl⟩
  read_write := by
    intro n rest h
    rw [Int.toString_eq_repr, Int.repr_eq_if]
    split
    · rename_i hpos
      have hread := readDigits_natText n.toNat h
      obtain ⟨c, cs, hlist, hdigit⟩ := natText_head n.toNat
      have hminus : c ≠ '-' := by
        rintro rfl
        cases hdigit
      rw [hlist, List.cons_append] at hread ⊢
      rw [readInt, hread]
      · show some ((n.toNat : Int), rest) = _
        rw [Int.toNat_of_nonneg hpos]
      · intro cs' heq
        exact hminus (List.cons.inj heq).1
    · rename_i hneg
      have hread := readDigits_natText (-n).toNat h
      rw [toList_minus_append, List.cons_append, readInt, hread]
      show some (-(((-n).toNat : Nat) : Int), rest) = _
      rw [Int.toNat_of_nonneg (by omega), Int.neg_neg]

end Sinan.Lib.Json
