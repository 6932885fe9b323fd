import MiniApp.Data.Json
import MiniApp.Proofs.Numeral

/-!
# The grammar of JSON

What a JSON text stands for, without regard to how it is read or written. The grammar is strict:
numbers have no needless zeros in front, control characters are escaped, and an escape stands for a
surrogate only as one of a pair. Nonterminals relate a text to what its head stands for and to the
text that is left, so that nothing has to be put together from pieces.

A number stands for an integer if it has neither a fraction nor an exponent, and otherwise for its
own literal: which double is meant is not a question of grammar. The entries of a table keep their
order.

The grammar is unambiguous: a text stands for one tree at most. Only numbers need care, as the
digits of one may be the beginning of another; they reach as far as there are characters of numbers.

## Main definitions

* `Json.Tree`: what texts stand for
* `Json.Spells`: a value at the head of a text
* `Json.Document`: a whole text

## Main results

* `Json.Document.unique`: a text stands for one tree at most
-/

namespace MiniApp.Json

/-- What JSON texts stand for. -/
inductive Tree where
  | null
  | bool (value : Bool)
  | int (value : Int)
  | real (literal : String)
  | str (value : String)
  | list (items : List Tree)
  | table (entries : List (String × Tree))

variable {cs ds rest rest' : List Char} {c d : Char} {t t' : Tree}

/-! ## White space -/

/-- White space, perhaps none, at the head of a text. -/
def Blank (cs rest : List Char) : Prop := ∃ w, (∀ c ∈ w, isSpace c = true) ∧ cs = w ++ rest

/-- The text does not begin with a character of this kind. -/
def Lacks (kind : Char → Bool) (rest : List Char) : Prop := ∀ c ∈ rest.head?, kind c = false

theorem lacks_nil (kind : Char → Bool) : Lacks kind [] := fun _ h => nomatch h

theorem lacks_cons {kind : Char → Bool} : Lacks kind (c :: cs) ↔ kind c = false := by
  simp [Lacks]

/-- White space reaches as far as it can, if something else follows. -/
theorem Blank.skipSpace_eq (h : Blank cs rest) (hrest : Lacks isSpace rest) :
    skipSpace cs = rest := by
  obtain ⟨w, hw, rfl⟩ := h
  rw [skipSpace, List.dropWhile_append_of_pos hw]
  cases rest with
  | nil => rfl
  | cons c ds => exact List.dropWhile_cons_of_neg (by simp [lacks_cons.mp hrest])

theorem Blank.unique (h : Blank cs rest) (h' : Blank cs rest') (hrest : Lacks isSpace rest)
    (hrest' : Lacks isSpace rest') : rest = rest' :=
  (h.skipSpace_eq hrest).symm.trans (h'.skipSpace_eq hrest')

/-- What holds of the four characters of white space. -/
@[elab_as_elim]
theorem of_space {P : Char → Prop} [DecidablePred P] (c : Char)
    (h : [' ', '\t', '\r', '\n'].all fun c => P c) (hc : isSpace c = true) : P c :=
  List.all_iff_forall_prop.mp h c (by simpa [isSpace, or_assoc] using hc)

/-- White space is no part of a number. -/
theorem Blank.lacks_number (h : Blank cs rest) (hrest : Lacks isNumberChar rest) :
    Lacks isNumberChar cs := by
  obtain ⟨w, hw, rfl⟩ := h
  cases w with
  | nil => exact hrest
  | cons c w => exact lacks_cons.mpr (of_space c (by decide) (hw c List.mem_cons_self))

/-! ## Numbers -/

/-- A run of digits. -/
def Digits (ds : List Char) : Prop := ds ≠ [] ∧ ∀ d ∈ ds, Text.isAsciiDigit d = true

/-- The digits of a whole number, without needless zeros. -/
def Whole (ds : List Char) : Prop := Digits ds ∧ (ds.head? = some '0' → ds = ['0'])

/-- The number that a run of digits spells. -/
def numberOf (ds : List Char) : Nat := Nat.ofDigitChars 10 ds 0

/-- A sign in front of a number. -/
def minus (negative : Bool) : List Char := if negative then ['-'] else []

/-- A fraction, or none. -/
inductive Fraction : List Char → Prop
  | none : Fraction []
  | some {ds : List Char} : Digits ds → Fraction ('.' :: ds)

/-- An exponent, or none. -/
inductive Exponent : List Char → Prop
  | none : Exponent []
  | some {e : Char} {sign ds : List Char} : e ∈ ['e', 'E'] → sign ∈ [[], ['+'], ['-']] →
      Digits ds → Exponent (e :: (sign ++ ds))

/-- The literal of a number, with what it stands for. -/
inductive SpellsNumber : List Char → Tree → Prop
  | int (negative : Bool) {ds : List Char} : Whole ds →
      SpellsNumber (minus negative ++ ds)
        (.int (if negative then -(numberOf ds : Int) else numberOf ds))
  | real (negative : Bool) {ds fs es : List Char} : Whole ds → Fraction fs → Exponent es →
      fs ++ es ≠ [] →
      SpellsNumber (minus negative ++ ds ++ (fs ++ es))
        (.real (String.ofList (minus negative ++ ds ++ (fs ++ es))))

/-! ### What numbers are made of -/

theorem Digits.forall {P : Char → Prop} [DecidablePred P] (h : Digits ds)
    (hP : Text.asciiDigits.all fun c => P c) : ∀ d ∈ ds, P d :=
  Text.forall_digits hP h.2

theorem minus_forall {P : Char → Prop} (hP : P '-') {negative : Bool} :
    ∀ c ∈ minus negative, P c := by
  cases negative <;> simp [minus, hP]

theorem Fraction.forall {P : Char → Prop} [DecidablePred P] {fs : List Char} (h : Fraction fs)
    (hpoint : P '.') (hP : Text.asciiDigits.all fun c => P c) : ∀ c ∈ fs, P c := by
  cases h with
  | none => exact fun c hc => absurd hc List.not_mem_nil
  | some hds => exact List.forall_mem_cons.mpr ⟨hpoint, hds.forall hP⟩

theorem Exponent.forall {P : Char → Prop} [DecidablePred P] {es : List Char} (h : Exponent es)
    (hsigns : ['e', 'E', '+', '-'].all fun c => P c) (hP : Text.asciiDigits.all fun c => P c) :
    ∀ c ∈ es, P c := by
  have hsigns := List.all_iff_forall_prop.mp hsigns
  cases h with
  | none => exact fun c hc => absurd hc List.not_mem_nil
  | @some e sign ds he hsign hds =>
    have hsign : ∀ c ∈ sign, c ∈ ['e', 'E', '+', '-'] := by
      simp only [List.mem_cons, List.not_mem_nil, or_false] at hsign
      rcases hsign with rfl | rfl | rfl <;> simp
    exact List.forall_mem_cons.mpr ⟨hsigns _ (List.mem_append_left ['+', '-'] he),
      List.forall_mem_append.mpr ⟨fun c hc => hsigns c (hsign c hc), hds.forall hP⟩⟩

/-- Only characters of numbers occur in a number. -/
theorem SpellsNumber.forall_isNumberChar (h : SpellsNumber ds t) :
    ∀ c ∈ ds, isNumberChar c = true := by
  cases h with
  | int negative hds =>
    exact List.forall_mem_append.mpr ⟨minus_forall (by decide), hds.1.forall (by decide)⟩
  | real negative hds hfs hes =>
    refine List.forall_mem_append.mpr ⟨List.forall_mem_append.mpr ⟨minus_forall (by decide), ?_⟩,
      List.forall_mem_append.mpr ⟨?_, ?_⟩⟩
    · exact hds.1.forall (by decide)
    · exact hfs.forall rfl (by decide)
    · exact hes.forall (by decide) (by decide)

/-- Characters that a number may begin with. -/
def startsNumber (c : Char) : Bool := c = '-' || Text.isAsciiDigit c

theorem startsNumber_append (negative : Bool) (hds : Digits ds) (cs : List Char) :
    ∃ d es, minus negative ++ ds ++ cs = d :: es ∧ startsNumber d = true := by
  obtain ⟨hne, hds⟩ := hds
  cases negative with
  | true => exact ⟨'-', ds ++ cs, rfl, rfl⟩
  | false =>
    cases ds with
    | nil => exact absurd rfl hne
    | cons d ds => exact ⟨d, ds ++ cs, rfl, by simp [startsNumber, hds d]⟩

theorem SpellsNumber.starts (h : SpellsNumber ds t) :
    ∃ d es, ds = d :: es ∧ startsNumber d = true := by
  cases h with
  | int negative hds => simpa using startsNumber_append negative hds.1 []
  | real negative hds hfs hes => exact startsNumber_append negative hds.1 _

/-- Characters that set off a fraction or an exponent. -/
def isMark (c : Char) : Bool := c = '.' || c = 'e' || c = 'E'

theorem exists_isMark {fs es : List Char} (hfs : Fraction fs) (hes : Exponent es)
    (hne : fs ++ es ≠ []) : ∃ c ∈ fs ++ es, isMark c = true := by
  cases hfs with
  | some hds => exact ⟨'.', List.mem_append_left _ List.mem_cons_self, rfl⟩
  | none =>
    cases hes with
    | none => exact absurd rfl hne
    | some he hsign hds =>
      refine ⟨_, List.mem_append_right _ List.mem_cons_self, ?_⟩
      simp only [List.mem_cons, List.not_mem_nil, or_false] at he
      rcases he with rfl | rfl <;> rfl

/-- The sign can be told from the digits. -/
theorem minus_append_inj {negative negative' : Bool} (hds : Digits ds) (hds' : Digits cs)
    (h : minus negative ++ ds = minus negative' ++ cs) : negative = negative' ∧ ds = cs := by
  have hdigit : ∀ {us : List Char}, Digits us → ∀ vs, us ≠ '-' :: vs := by
    rintro us hus vs rfl
    exact absurd (hus.2 '-' List.mem_cons_self) (by decide)
  cases negative <;> cases negative'
  · exact ⟨rfl, h⟩
  · exact absurd h (hdigit hds _)
  · exact absurd h.symm (hdigit hds' _)
  · exact ⟨rfl, List.cons.inj h |>.2⟩

/-- No integer is spelled like a number with a fraction or an exponent. -/
theorem minus_append_ne {negative negative' : Bool} {fs es : List Char} (hds : Digits ds)
    (hfs : Fraction fs) (hes : Exponent es) (hne : fs ++ es ≠ []) :
    minus negative ++ ds ≠ minus negative' ++ cs ++ (fs ++ es) := by
  intro heq
  obtain ⟨c, hc, hmarked⟩ := exists_isMark hfs hes hne
  have hplain : ∀ c ∈ minus negative ++ ds, isMark c = false :=
    List.forall_mem_append.mpr ⟨minus_forall (by decide), hds.forall (by decide)⟩
  have hunmarked := hplain c (heq ▸ List.mem_append_right _ hc)
  rw [hmarked] at hunmarked
  cases hunmarked

theorem SpellsNumber.unique (h : SpellsNumber ds t) (h' : SpellsNumber ds t') : t = t' := by
  generalize heq : ds = es at h'
  cases h with
  | int negative hds =>
    cases h' with
    | int negative' hds' =>
      obtain ⟨rfl, rfl⟩ := minus_append_inj hds.1 hds'.1 heq
      rfl
    | real negative' hds' hfs hes hne => exact absurd heq (minus_append_ne hds.1 hfs hes hne)
  | real negative hds hfs hes hne =>
    cases h' with
    | int negative' hds' => exact absurd heq.symm (minus_append_ne hds'.1 hfs hes hne)
    | real negative' hds' hfs' hes' hne' => rw [heq]

/-- A number reaches as far as there are characters of numbers. -/
theorem SpellsNumber.eq_takeWhile (h : SpellsNumber ds t) (hrest : Lacks isNumberChar rest) :
    (ds ++ rest).takeWhile isNumberChar = ds := by
  rw [List.takeWhile_append_of_pos h.forall_isNumberChar]
  cases rest with
  | nil => simp
  | cons c cs => simp [lacks_cons.mp hrest]

theorem SpellsNumber.unique_append (h : SpellsNumber cs t) (h' : SpellsNumber ds t')
    (hrest : Lacks isNumberChar rest) (hrest' : Lacks isNumberChar rest')
    (heq : cs ++ rest = ds ++ rest') : t = t' ∧ rest = rest' := by
  have hcs : cs = ds := by
    rw [← h.eq_takeWhile hrest, heq, h'.eq_takeWhile hrest']
  subst hcs
  exact ⟨h.unique h', List.append_cancel_left heq⟩

/-! ## Strings -/

/-- A character between quotes: plain, by a letter, or by one or two UTF-16 units. -/
inductive SpellsChar : List Char → Char → List Char → Prop
  | plain {c : Char} {rest : List Char} : 32 ≤ c.toNat → c ≠ '"' → c ≠ '\\' →
      SpellsChar (c :: rest) c rest
  | letter {e c : Char} {rest : List Char} : letterChar? e = some c →
      SpellsChar ('\\' :: e :: rest) c rest
  | unit {cs rest : List Char} {n : Nat} : unit? cs = some (n, rest) → n < 0xD800 ∨ 0xE000 ≤ n →
      SpellsChar ('\\' :: 'u' :: cs) (Char.ofNat n) rest
  | pair {cs ds rest : List Char} {high low : Nat} : unit? cs = some (high, '\\' :: 'u' :: ds) →
      0xD800 ≤ high ∧ high < 0xDC00 → unit? ds = some (low, rest) → 0xDC00 ≤ low ∧ low < 0xE000 →
      SpellsChar ('\\' :: 'u' :: cs)
        (Char.ofNat (0x10000 + (high - 0xD800) * 0x400 + (low - 0xDC00))) rest

/-- What stands behind an opening quote, up to the closing one. -/
inductive SpellsChars : List Char → List Char → List Char → Prop
  | nil {rest : List Char} : SpellsChars ('"' :: rest) [] rest
  | cons {cs ds rest s : List Char} {c : Char} : SpellsChar cs c ds → SpellsChars ds s rest →
      SpellsChars cs (c :: s) rest

theorem SpellsChar.unique (h : SpellsChar cs c rest) (h' : SpellsChar cs d rest') :
    c = d ∧ rest = rest' := by
  cases h with
  | plain _ _ hslash =>
    cases h' with
    | plain => exact ⟨rfl, rfl⟩
    | letter | unit | pair => exact absurd rfl hslash
  | letter hc =>
    cases h' with
    | plain _ _ hslash => exact absurd rfl hslash
    | letter hd => exact ⟨Option.some.inj (hc.symm.trans hd), rfl⟩
    | unit | pair => cases hc
  | unit hn hplain =>
    cases h' with
    | plain _ _ hslash => exact absurd rfl hslash
    | letter hd => cases hd
    | unit hn' =>
      obtain ⟨rfl, rfl⟩ := Prod.mk.inj (Option.some.inj (hn.symm.trans hn'))
      exact ⟨rfl, rfl⟩
    -- a unit is a character of its own or one of a pair, by its range
    | pair hhigh hrange =>
      obtain ⟨rfl, rfl⟩ := Prod.mk.inj (Option.some.inj (hn.symm.trans hhigh))
      omega
  | pair hhigh hrange hlow =>
    cases h' with
    | plain _ _ hslash => exact absurd rfl hslash
    | letter hd => cases hd
    | unit hn hplain =>
      obtain ⟨rfl, rfl⟩ := Prod.mk.inj (Option.some.inj (hn.symm.trans hhigh))
      omega
    | pair hhigh' _ hlow' =>
      obtain ⟨rfl, heq⟩ := Prod.mk.inj (Option.some.inj (hhigh.symm.trans hhigh'))
      obtain ⟨-, heq⟩ := List.cons.inj heq
      obtain ⟨-, rfl⟩ := List.cons.inj heq
      obtain ⟨rfl, rfl⟩ := Prod.mk.inj (Option.some.inj (hlow.symm.trans hlow'))
      exact ⟨rfl, rfl⟩

/-- No character is spelled with a quote in front. -/
theorem SpellsChar.head_ne_quote : ¬ SpellsChar ('"' :: cs) c rest := by
  intro h
  cases h with
  | plain _ hquote _ => exact hquote rfl

theorem SpellsChars.unique {s s' : List Char} (h : SpellsChars cs s rest)
    (h' : SpellsChars cs s' rest') : s = s' ∧ rest = rest' := by
  induction h generalizing s' with
  | nil =>
    cases h' with
    | nil => exact ⟨rfl, rfl⟩
    | cons hc _ => exact absurd hc SpellsChar.head_ne_quote
  | cons hc _ ih =>
    cases h' with
    | nil => exact absurd hc SpellsChar.head_ne_quote
    | cons hd hs' =>
      obtain ⟨rfl, rfl⟩ := hc.unique hd
      obtain ⟨rfl, rfl⟩ := ih hs'
      exact ⟨rfl, rfl⟩

/-- The key of an entry, with the colon behind it. -/
def SpellsKey (cs : List Char) (key : String) (rest : List Char) : Prop :=
  ∃ ds es, Blank cs ('"' :: ds) ∧ SpellsChars ds key.toList es ∧ Blank es (':' :: rest)

theorem SpellsKey.unique {key key' : String} (h : SpellsKey cs key rest)
    (h' : SpellsKey cs key' rest') : key = key' ∧ rest = rest' := by
  obtain ⟨ds, es, hquote, hkey, hcolon⟩ := h
  obtain ⟨ds', es', hquote', hkey', hcolon'⟩ := h'
  obtain ⟨-, rfl⟩ := List.cons.inj (hquote.unique hquote' (lacks_cons.mpr rfl) (lacks_cons.mpr rfl))
  obtain ⟨hkeys, rfl⟩ := hkey.unique hkey'
  obtain ⟨-, rfl⟩ := List.cons.inj (hcolon.unique hcolon' (lacks_cons.mpr rfl) (lacks_cons.mpr rfl))
  exact ⟨String.toList_injective hkeys, rfl⟩

/-! ## Values -/

mutual

/-- A value at the head of a text. -/
inductive Spells : List Char → Tree → List Char → Prop
  | null {rest : List Char} : Spells ('n' :: 'u' :: 'l' :: 'l' :: rest) .null rest
  | yes {rest : List Char} : Spells ('t' :: 'r' :: 'u' :: 'e' :: rest) (.bool true) rest
  | no {rest : List Char} : Spells ('f' :: 'a' :: 'l' :: 's' :: 'e' :: rest) (.bool false) rest
  | number {cs ds rest : List Char} {t : Tree} : SpellsNumber ds t → cs = ds ++ rest →
      Spells cs t rest
  | str {cs rest : List Char} {s : String} : SpellsChars cs s.toList rest →
      Spells ('"' :: cs) (.str s) rest
  | emptyList {cs rest : List Char} : Blank cs (']' :: rest) → Spells ('[' :: cs) (.list []) rest
  | list {cs rest : List Char} {items : List Tree} : SpellsItems cs items rest →
      Spells ('[' :: cs) (.list items) rest
  | emptyTable {cs rest : List Char} : Blank cs ('\x7d' :: rest) →
      Spells ('\x7b' :: cs) (.table []) rest
  | table {cs rest : List Char} {entries : List (String × Tree)} :
      SpellsEntries cs entries rest → Spells ('\x7b' :: cs) (.table entries) rest

/-- A value between white space. -/
inductive SpellsItem : List Char → Tree → List Char → Prop
  | intro {cs ds es rest : List Char} {t : Tree} : Blank cs ds → Spells ds t es → Blank es rest →
      SpellsItem cs t rest

/-- The items of a list, the bracket behind them included. -/
inductive SpellsItems : List Char → List Tree → List Char → Prop
  | last {cs rest : List Char} {t : Tree} : SpellsItem cs t (']' :: rest) →
      SpellsItems cs [t] rest
  | more {cs ds rest : List Char} {t : Tree} {ts : List Tree} : SpellsItem cs t (',' :: ds) →
      SpellsItems ds ts rest → SpellsItems cs (t :: ts) rest

/-- The entries of a table, the brace behind them included. -/
inductive SpellsEntries : List Char → List (String × Tree) → List Char → Prop
  | last {cs ds rest : List Char} {key : String} {t : Tree} : SpellsKey cs key ds →
      SpellsItem ds t ('\x7d' :: rest) → SpellsEntries cs [(key, t)] rest
  | more {cs ds es rest : List Char} {key : String} {t : Tree} {entries : List (String × Tree)} :
      SpellsKey cs key ds → SpellsItem ds t (',' :: es) → SpellsEntries es entries rest →
      SpellsEntries cs ((key, t) :: entries) rest

end

/-- A text that begins like a number is one. -/
theorem Spells.exists_number (h : Spells (c :: cs) t rest) (hc : startsNumber c = true) :
    ∃ ds, SpellsNumber ds t ∧ c :: cs = ds ++ rest := by
  cases h with
  | number hds heq => exact ⟨_, hds, heq⟩
  | null | yes | no | str | emptyList | list | emptyTable | table => exact absurd hc (by decide)

/-- A text that does not begin like a number is none. -/
theorem SpellsNumber.startsNumber_of_append (h : SpellsNumber ds t) (heq : c :: cs = ds ++ rest) :
    startsNumber c = true := by
  obtain ⟨d, es, rfl, hd⟩ := h.starts
  rw [(List.cons.inj heq).1]
  exact hd

/-- A value begins neither with white space nor with a closing bracket. -/
theorem Spells.head (h : Spells cs t rest) :
    ∃ c ds, cs = c :: ds ∧ isSpace c = false ∧ c ≠ ']' := by
  cases h with
  | number hds heq =>
    obtain ⟨d, es, rfl, hd⟩ := hds.starts
    refine ⟨d, es ++ rest, heq, ?_⟩
    rcases (by simpa [startsNumber] using hd : d = '-' ∨ Text.isAsciiDigit d = true) with rfl | hd
    · decide
    · exact Text.of_digit d (by decide) hd
  | null | yes | no | str | emptyList | list | emptyTable | table =>
    exact ⟨_, _, rfl, by decide, by decide⟩

theorem Spells.lacks_isSpace (h : Spells cs t rest) : Lacks isSpace cs := by
  obtain ⟨c, ds, rfl, hspace, -⟩ := h.head
  exact lacks_cons.mpr hspace

/-- What may follow a value and its white space: neither a number nor white space goes on. -/
def Ends (rest : List Char) : Prop := Lacks isNumberChar rest ∧ Lacks isSpace rest

theorem ends_nil : Ends [] := ⟨lacks_nil _, lacks_nil _⟩

theorem ends_cons (h : isNumberChar c = false ∧ isSpace c = false) : Ends (c :: cs) :=
  ⟨lacks_cons.mpr h.1, lacks_cons.mpr h.2⟩

/-- A list that begins with an item is not empty. -/
theorem SpellsItems.not_blank {ts : List Tree} (h : SpellsItems cs ts rest)
    (hblank : Blank cs (']' :: rest')) : False := by
  obtain ⟨_, _, hitem⟩ : ∃ t us, SpellsItem cs t us := by
    cases h with
    | last h => exact ⟨_, _, h⟩
    | more h _ => exact ⟨_, _, h⟩
  obtain ⟨hcs, hvalue, -⟩ := hitem
  obtain ⟨c, ds, rfl, hspace, hbracket⟩ := hvalue.head
  have heq := hcs.unique hblank (lacks_cons.mpr hspace) (lacks_cons.mpr rfl)
  exact hbracket (List.cons.inj heq).1

/-- A table that begins with an entry is not empty. -/
theorem SpellsEntries.not_blank {entries : List (String × Tree)} (h : SpellsEntries cs entries rest)
    (hblank : Blank cs ('\x7d' :: rest')) : False := by
  obtain ⟨_, _, ⟨_, _, hquote, -⟩⟩ : ∃ key us, SpellsKey cs key us := by
    cases h with
    | last h _ => exact ⟨_, _, h⟩
    | more h _ _ => exact ⟨_, _, h⟩
  have heq := hquote.unique hblank (lacks_cons.mpr rfl) (lacks_cons.mpr rfl)
  exact absurd (List.cons.inj heq).1 (by decide)

/-! ### A text stands for one tree at most

What is spelled is determined, and so is what is left, as long as what is left does not go on like a
number. -/

mutual

theorem Spells.unique : ∀ {cs rest rest' : List Char} {t t' : Tree}, Spells cs t rest →
    Spells cs t' rest' → Lacks isNumberChar rest → Lacks isNumberChar rest' →
    t = t' ∧ rest = rest'
  -- the first character tells the form, but for what follows a bracket
  | _, _, _, _, _, .null, h', _, _ => by
    cases h' with
    | null => exact ⟨rfl, rfl⟩
    | number hds heq => exact absurd (hds.startsNumber_of_append heq) (by decide)
  | _, _, _, _, _, .yes, h', _, _ => by
    cases h' with
    | yes => exact ⟨rfl, rfl⟩
    | number hds heq => exact absurd (hds.startsNumber_of_append heq) (by decide)
  | _, _, _, _, _, .no, h', _, _ => by
    cases h' with
    | no => exact ⟨rfl, rfl⟩
    | number hds heq => exact absurd (hds.startsNumber_of_append heq) (by decide)
  | _, _, _, _, _, .number hds heq, h', hrest, hrest' => by
    obtain ⟨d, es, rfl, hd⟩ := hds.starts
    subst heq
    obtain ⟨us, hus, heq⟩ := h'.exists_number hd
    exact hds.unique_append hus hrest hrest' heq
  | _, _, _, _, _, .str hs, h', _, _ => by
    cases h' with
    | str hs' =>
      obtain ⟨heq, rfl⟩ := hs.unique hs'
      exact ⟨by rw [String.toList_injective heq], rfl⟩
    | number hds heq => exact absurd (hds.startsNumber_of_append heq) (by decide)
  | _, _, _, _, _, .emptyList hblank, h', _, _ => by
    cases h' with
    | emptyList hblank' =>
      have heq := hblank.unique hblank' (lacks_cons.mpr rfl) (lacks_cons.mpr rfl)
      exact ⟨rfl, (List.cons.inj heq).2⟩
    | list hitems => exact (hitems.not_blank hblank).elim
    | number hds heq => exact absurd (hds.startsNumber_of_append heq) (by decide)
  | _, _, _, _, _, .list hitems, h', _, _ => by
    cases h' with
    | emptyList hblank => exact (hitems.not_blank hblank).elim
    | list hitems' =>
      obtain ⟨rfl, rfl⟩ := hitems.unique hitems'
      exact ⟨rfl, rfl⟩
    | number hds heq => exact absurd (hds.startsNumber_of_append heq) (by decide)
  | _, _, _, _, _, .emptyTable hblank, h', _, _ => by
    cases h' with
    | emptyTable hblank' =>
      have heq := hblank.unique hblank' (lacks_cons.mpr rfl) (lacks_cons.mpr rfl)
      exact ⟨rfl, (List.cons.inj heq).2⟩
    | table hentries => exact (hentries.not_blank hblank).elim
    | number hds heq => exact absurd (hds.startsNumber_of_append heq) (by decide)
  | _, _, _, _, _, .table hentries, h', _, _ => by
    cases h' with
    | emptyTable hblank => exact (hentries.not_blank hblank).elim
    | table hentries' =>
      obtain ⟨rfl, rfl⟩ := hentries.unique hentries'
      exact ⟨rfl, rfl⟩
    | number hds heq => exact absurd (hds.startsNumber_of_append heq) (by decide)

theorem SpellsItem.unique : ∀ {cs rest rest' : List Char} {t t' : Tree}, SpellsItem cs t rest →
    SpellsItem cs t' rest' → Ends rest → Ends rest' → t = t' ∧ rest = rest'
  | _, _, _, _, _, .intro hbefore hvalue hbehind, .intro hbefore' hvalue' hbehind', hrest,
      hrest' => by
    -- white space ends where the value begins, and the value where white space begins or the rest
    obtain rfl := hbefore.unique hbefore' hvalue.lacks_isSpace hvalue'.lacks_isSpace
    obtain ⟨rfl, rfl⟩ := hvalue.unique hvalue' (hbehind.lacks_number hrest.1)
      (hbehind'.lacks_number hrest'.1)
    exact ⟨rfl, hbehind.unique hbehind' hrest.2 hrest'.2⟩

theorem SpellsItems.unique : ∀ {cs rest rest' : List Char} {ts ts' : List Tree},
    SpellsItems cs ts rest → SpellsItems cs ts' rest' → ts = ts' ∧ rest = rest'
  | _, _, _, _, _, .last hitem, h' => by
    cases h' with
    | last hitem' =>
      obtain ⟨rfl, heq⟩ := hitem.unique hitem' (ends_cons (by decide)) (ends_cons (by decide))
      exact ⟨rfl, (List.cons.inj heq).2⟩
    | more hitem' _ =>
      obtain ⟨-, heq⟩ := hitem.unique hitem' (ends_cons (by decide)) (ends_cons (by decide))
      exact absurd (List.cons.inj heq).1 (by decide)
  | _, _, _, _, _, .more hitem hitems, h' => by
    cases h' with
    | last hitem' =>
      obtain ⟨-, heq⟩ := hitem.unique hitem' (ends_cons (by decide)) (ends_cons (by decide))
      exact absurd (List.cons.inj heq).1 (by decide)
    | more hitem' hitems' =>
      obtain ⟨rfl, heq⟩ := hitem.unique hitem' (ends_cons (by decide)) (ends_cons (by decide))
      obtain ⟨-, rfl⟩ := List.cons.inj heq
      obtain ⟨rfl, rfl⟩ := hitems.unique hitems'
      exact ⟨rfl, rfl⟩

theorem SpellsEntries.unique : ∀ {cs rest rest' : List Char} {es es' : List (String × Tree)},
    SpellsEntries cs es rest → SpellsEntries cs es' rest' → es = es' ∧ rest = rest'
  | _, _, _, _, _, .last hkey hitem, h' => by
    cases h' with
    | last hkey' hitem' =>
      obtain ⟨rfl, rfl⟩ := hkey.unique hkey'
      obtain ⟨rfl, heq⟩ := hitem.unique hitem' (ends_cons (by decide)) (ends_cons (by decide))
      exact ⟨rfl, (List.cons.inj heq).2⟩
    | more hkey' hitem' _ =>
      obtain ⟨rfl, rfl⟩ := hkey.unique hkey'
      obtain ⟨-, heq⟩ := hitem.unique hitem' (ends_cons (by decide)) (ends_cons (by decide))
      exact absurd (List.cons.inj heq).1 (by decide)
  | _, _, _, _, _, .more hkey hitem hentries, h' => by
    cases h' with
    | last hkey' hitem' =>
      obtain ⟨rfl, rfl⟩ := hkey.unique hkey'
      obtain ⟨-, heq⟩ := hitem.unique hitem' (ends_cons (by decide)) (ends_cons (by decide))
      exact absurd (List.cons.inj heq).1 (by decide)
    | more hkey' hitem' hentries' =>
      obtain ⟨rfl, rfl⟩ := hkey.unique hkey'
      obtain ⟨rfl, heq⟩ := hitem.unique hitem' (ends_cons (by decide)) (ends_cons (by decide))
      obtain ⟨-, rfl⟩ := List.cons.inj heq
      obtain ⟨rfl, rfl⟩ := hentries.unique hentries'
      exact ⟨rfl, rfl⟩

end

/-- A whole text: a value between white space. -/
def Document (cs : List Char) (t : Tree) : Prop := SpellsItem cs t []

theorem Document.unique (h : Document cs t) (h' : Document cs t') : t = t' :=
  (SpellsItem.unique h h' ends_nil ends_nil).1

end MiniApp.Json
