import MiniApp.App
import MiniApp.Proofs.Json.Numbers

/-!
# Written JSON

The text that plain data is written as is a JSON text in ASCII, and by the grammar it stands for the
data it was written from and for nothing else. A written value is followed by a comma, a closing
bracket or white space, or by nothing, so no number runs on into what follows it. Whether the text
is indented makes no difference: what is between the items is white space.

## Main definitions

* `Json.Means`: a text that spells a tree, whatever follows
* `Data.tree`, `Value.tree`: what the texts of data and of values stand for
* `App.IsWritable`: records that can be written

## Main results

* `Data.means_write`, `Data.ascii_write`: the written text of data
* `Data.document_toJson`: what the written text stands for
* `App.decodes_toJson`: the text of an application record
-/

namespace MiniApp

namespace Json

variable {cs rest : List Char} {t : Tree}

/-! ## Escapes -/

theorem hexDigits_succ {width : Nat} (hwidth : width ≠ 0) (n : Nat) :
    Text.hexDigits (width + 1) n = Text.hexDigits width (n / 16) ++ [(n % 16).digitChar] := by
  by_cases hlt : n < 16
  · have hzero : n / 16 = 0 := Nat.div_eq_of_lt hlt
    obtain ⟨width, rfl⟩ := Nat.exists_eq_succ_of_ne_zero hwidth
    rw [Text.hexDigits, Text.hexDigits, hzero, Nat.mod_eq_of_lt hlt, Nat.toDigits_of_lt_base hlt]
    simp [List.replicate_succ', Nat.toDigits_zero]
  · rw [Text.hexDigits, Text.hexDigits, Nat.toDigits_of_base_le (by decide) (by omega)]
    simp

theorem hexDigits_one {n : Nat} (hn : n < 16) : Text.hexDigits 1 n = [n.digitChar] := by
  rw [Text.hexDigits, Nat.toDigits_of_lt_base hn]
  rfl

theorem hexDigits_four {n : Nat} (hn : n < 0x10000) :
    Text.hexDigits 4 n = [(n / 16 / 16 / 16).digitChar, (n / 16 / 16 % 16).digitChar,
      (n / 16 % 16).digitChar, (n % 16).digitChar] := by
  rw [hexDigits_succ (by decide), hexDigits_succ (by decide), hexDigits_succ (by decide),
    hexDigits_one (by omega)]
  rfl

theorem hexValue?_digitChar {d : Nat} (hd : d < 16) : hexValue? d.digitChar = some d := by
  have hall : ∀ d < 16, hexValue? d.digitChar = some d := by decide
  exact hall d hd

/-- The four digits of a UTF-16 unit are read back. -/
theorem unit?_hexDigits {n : Nat} (hn : n < 0x10000) (rest : List Char) :
    unit? (Text.hexDigits 4 n ++ rest) = some (n, rest) := by
  have hvalue : ((n / 16 / 16 / 16 * 16 + n / 16 / 16 % 16) * 16 + n / 16 % 16) * 16 + n % 16 =
      n := by omega
  rw [hexDigits_four hn]
  simp only [List.cons_append, List.nil_append, unit?]
  rw [hexValue?_digitChar (by omega), hexValue?_digitChar (Nat.mod_lt _ (by decide)),
    hexValue?_digitChar (Nat.mod_lt _ (by decide)), hexValue?_digitChar (Nat.mod_lt _ (by decide))]
  simp only [Option.bind_eq_bind, Option.bind_some, Option.pure_def, hvalue]

/-- The ways in which a character is written: by a letter, plainly, or by one or two units. -/
inductive Escapes (c : Char) : List Char → Prop
  | letter (e : Char) : letterChar? e = some c → e.toNat < 128 → Escapes c ['\\', e]
  | plain : 32 ≤ c.toNat ∧ c.toNat < 127 → c ≠ '"' → c ≠ '\\' → Escapes c [c]
  | unit : c.toNat < 0x10000 → Escapes c (unitEscape c.toNat)
  | pair : 0x10000 ≤ c.toNat →
      Escapes c (unitEscape (0xD800 + (c.toNat - 0x10000) / 0x400) ++
        unitEscape (0xDC00 + (c.toNat - 0x10000) % 0x400))

theorem escapes_escape (c : Char) : Escapes c (escape c) := by
  rw [escape]
  -- seven characters have letters of their own
  iterate 7
    split
    · next hc =>
      subst hc
      exact .letter _ rfl (by decide)
  split
  · next hplain => exact .plain hplain ‹_› ‹_›
  split
  · next hbasic => exact .unit hbasic
  · next hbasic => exact .pair (Nat.le_of_not_lt hbasic)

theorem unitEscape_append (n : Nat) (rest : List Char) :
    unitEscape n ++ rest = '\\' :: 'u' :: (Text.hexDigits 4 n ++ rest) := rfl

/-- A pair of surrogates, given the number of the high one and of the low one. -/
theorem spellsChar_pair {high low : Nat} (hhigh : high < 0x400) (hlow : low < 0x400)
    (rest : List Char) :
    SpellsChar (unitEscape (0xD800 + high) ++ (unitEscape (0xDC00 + low) ++ rest))
      (Char.ofNat (0x10000 + high * 0x400 + low)) rest := by
  have hcode : 0x10000 + high * 0x400 + low =
      0x10000 + (0xD800 + high - 0xD800) * 0x400 + (0xDC00 + low - 0xDC00) := by omega
  have hhigh' : 0xD800 ≤ 0xD800 + high ∧ 0xD800 + high < 0xDC00 := by omega
  have hlow' : 0xDC00 ≤ 0xDC00 + low ∧ 0xDC00 + low < 0xE000 := by omega
  rw [hcode]
  generalize 0xD800 + high = high at hhigh' ⊢
  generalize 0xDC00 + low = low at hlow' ⊢
  rw [unitEscape_append, unitEscape_append]
  exact .pair (unit?_hexDigits (by omega) _) hhigh' (unit?_hexDigits (by omega) rest) hlow'

theorem spellsChar_escape (c : Char) (rest : List Char) : SpellsChar (escape c ++ rest) c rest := by
  have hescapes := escapes_escape c
  have hcode := Char.ofNat_toNat c
  have hvalid : c.toNat < 0xD800 ∨ 0xDFFF < c.toNat ∧ c.toNat < 0x110000 := c.valid
  generalize escape c = cs at hescapes
  cases hescapes with
  | letter e he _ => exact .letter he
  | plain hrange hquote hslash => exact .plain hrange.1 hquote hslash
  | unit hbasic =>
    have hspells := SpellsChar.unit (unit?_hexDigits hbasic rest) (by omega)
    rwa [hcode] at hspells
  | pair hbeyond =>
    -- a character beyond the basic plane is put together from the halves of its surrogates
    have hsplit : 0x10000 + (c.toNat - 0x10000) / 0x400 * 0x400 + (c.toNat - 0x10000) % 0x400 =
        c.toNat := by omega
    have hhigh : (c.toNat - 0x10000) / 0x400 < 0x400 := by omega
    have hlow : (c.toNat - 0x10000) % 0x400 < 0x400 := Nat.mod_lt _ (by decide)
    have hspells := spellsChar_pair hhigh hlow rest
    rw [hsplit, hcode] at hspells
    rwa [List.append_assoc]

theorem spellsChars_flatMap (s rest : List Char) :
    SpellsChars (s.flatMap escape ++ '"' :: rest) s rest := by
  induction s with
  | nil => exact .nil
  | cons c s ih =>
    rw [List.flatMap_cons, List.append_assoc]
    exact .cons (spellsChar_escape c _) ih

/-! ## Texts of values -/

/-- A text that spells a tree, whatever follows, unless a number goes on. -/
def Means (cs : List Char) (t : Tree) : Prop :=
  ∀ rest, Lacks isNumberChar rest → Spells (cs ++ rest) t rest

theorem means_string (s : String) : Means (string s) (.str s) := by
  intro rest _
  rw [string, List.append_assoc, List.cons_append, List.singleton_append]
  exact .str (spellsChars_flatMap s.toList rest)

theorem SpellsNumber.means (h : SpellsNumber cs t) : Means cs t := fun _ _ => .number h rfl

/-- White space on its own. -/
def IsBlank (w : List Char) : Prop := ∀ c ∈ w, isSpace c = true

theorem isBlank_lineBreak (indent : Option Nat) (depth : Nat) :
    IsBlank (lineBreak indent depth) := by
  cases indent with
  | none => exact fun _ h => absurd h List.not_mem_nil
  | some width =>
    exact List.forall_mem_cons.mpr ⟨rfl, fun c hc => by rw [List.eq_of_mem_replicate hc]; rfl⟩

/-- A separator is a comma and white space. -/
theorem separator_eq (indent : Option Nat) (depth : Nat) :
    ∃ w, IsBlank w ∧ separator indent depth = ',' :: w := by
  rw [separator]
  split
  · exact ⟨_, List.forall_mem_singleton.mpr rfl, rfl⟩
  · exact ⟨_, isBlank_lineBreak indent depth, rfl⟩

theorem IsBlank.blank {w : List Char} (h : IsBlank w) (rest : List Char) : Blank (w ++ rest) rest :=
  ⟨w, h, rfl⟩

theorem Means.item {w w' : List Char} (h : Means cs t) (hw : IsBlank w) (hw' : IsBlank w')
    (rest : List Char) (hrest : Lacks isNumberChar rest) :
    SpellsItem (w ++ (cs ++ (w' ++ rest))) t rest :=
  .intro (hw.blank _) (h _ ((hw'.blank rest).lacks_number hrest)) (hw'.blank rest)

/-- A key with the colon and the blank behind it. -/
theorem spellsKey_string {w : List Char} (hw : IsBlank w) (key : String) (rest : List Char) :
    SpellsKey (w ++ (string key ++ ':' :: rest)) key rest := by
  refine ⟨key.toList.flatMap escape ++ '"' :: ':' :: rest, ':' :: rest, ?_,
    spellsChars_flatMap key.toList _, ⟨[], List.forall_mem_nil _, rfl⟩⟩
  refine ⟨w, hw, ?_⟩
  simp [string]

/-! ## ASCII -/

/-- Only characters of ASCII occur. -/
def Ascii (cs : List Char) : Prop := ∀ c ∈ cs, c.toNat < 128

@[simp] theorem ascii_nil : Ascii [] := List.forall_mem_nil _

@[simp] theorem ascii_cons {c : Char} : Ascii (c :: cs) ↔ c.toNat < 128 ∧ Ascii cs :=
  List.forall_mem_cons

@[simp] theorem ascii_append {ds : List Char} : Ascii (cs ++ ds) ↔ Ascii cs ∧ Ascii ds :=
  List.forall_mem_append

theorem SpellsNumber.ascii (h : SpellsNumber cs t) : Ascii cs := by
  intro c hc
  have hnumber := h.forall_isNumberChar c hc
  simp only [isNumberChar, Bool.or_eq_true, decide_eq_true_eq] at hnumber
  rcases hnumber with ((((hdigit | rfl) | rfl) | rfl) | rfl) | rfl
  · exact Text.of_digit c (by decide) hdigit
  all_goals decide

theorem IsBlank.ascii {w : List Char} (h : IsBlank w) : Ascii w :=
  fun c hc => of_space c (by decide) (h c hc)

@[simp] theorem ascii_lineBreak (indent : Option Nat) (depth : Nat) :
    Ascii (lineBreak indent depth) :=
  (isBlank_lineBreak indent depth).ascii

@[simp] theorem ascii_separator (indent : Option Nat) (depth : Nat) :
    Ascii (separator indent depth) := by
  obtain ⟨w, hw, heq⟩ := separator_eq indent depth
  simp [heq, hw.ascii]

theorem ascii_unitEscape {n : Nat} (hn : n < 0x10000) : Ascii (unitEscape n) := by
  have hdigit : ∀ d < 16, d.digitChar.toNat < 128 := by decide
  have hlead : n / 16 / 16 / 16 < 16 := by omega
  rw [unitEscape, hexDigits_four hn]
  simp [hdigit, hlead, Nat.mod_lt]

theorem ascii_escape (c : Char) : Ascii (escape c) := by
  have hescapes := escapes_escape c
  have hvalid : c.toNat < 0xD800 ∨ 0xDFFF < c.toNat ∧ c.toNat < 0x110000 := c.valid
  generalize escape c = cs at hescapes
  cases hescapes with
  | letter e _ he => simp [he]
  | plain hrange _ _ =>
    have hlt : c.toNat < 128 := by omega
    simp [hlt]
  | unit hbasic => exact ascii_unitEscape hbasic
  | pair hbeyond =>
    have hhigh : 0xD800 + (c.toNat - 0x10000) / 0x400 < 0x10000 := by omega
    have hlow : 0xDC00 + (c.toNat - 0x10000) % 0x400 < 0x10000 := by omega
    exact ascii_append.mpr ⟨ascii_unitEscape hhigh, ascii_unitEscape hlow⟩

@[simp] theorem ascii_string (s : String) : Ascii (string s) := by
  have hescaped : Ascii (s.toList.flatMap escape) := fun c hc => by
    obtain ⟨d, -, hd⟩ := List.mem_flatMap.mp hc
    exact ascii_escape d c hd
  simp [string, hescaped]

end Json

namespace Data

mutual

/-- What the JSON text of a value stands for. Doubles stand for their text, as moments do. -/
def tree : Data → Json.Tree
  | .null => .null
  | .bool b => .bool b
  | .int i => .int i
  | .double d => .real d.text
  | .str s => .str s
  | .moment m => .str m.text
  | .list items => .list (trees items)
  | .table entries => .table (entryTrees entries)

/-- What the items of a list stand for. -/
def trees : List Data → List Json.Tree
  | [] => []
  | d :: ds => d.tree :: trees ds

/-- What the entries of a table stand for. -/
def entryTrees : List (String × Data) → List (String × Json.Tree)
  | [] => []
  | (k, v) :: rest => (k, v.tree) :: entryTrees rest

end

/-- Data in which every double is finite. -/
inductive IsFinite : Data → Prop
  | null : IsFinite .null
  | bool (b : Bool) : IsFinite (.bool b)
  | int (i : Int) : IsFinite (.int i)
  | double {negative : Bool} {quanta : Nat} (fits : Double.Fits quanta) :
      IsFinite (.double (.finite negative quanta fits))
  | str (s : String) : IsFinite (.str s)
  | moment (m : Moment) : IsFinite (.moment m)
  | list {items : List Data} : (∀ d ∈ items, IsFinite d) → IsFinite (.list items)
  | table {entries : List (String × Data)} : (∀ e ∈ entries, IsFinite e.2) →
      IsFinite (.table entries)

variable {indent : Option Nat}

open Json

mutual

/-- The written text of a value spells the value. -/
theorem means_write : ∀ (depth : Nat) (d : Data), d.IsFinite → Means (d.write indent depth) d.tree
  | _, .null, _ => fun _ _ => .null
  | _, .bool true, _ => fun _ _ => .yes
  | _, .bool false, _ => fun _ _ => .no
  | _, .int i, _ => (spellsNumber_intText i).means
  | _, .double _, .double fits => (spellsNumber_text fits "NaN" "Infinity").means
  | _, .str s, _ => means_string s
  | _, .moment m, _ => means_string m.text
  | _, .list [], _ => fun _ _ => .emptyList ⟨[], List.forall_mem_nil _, rfl⟩
  | depth, .list (d :: ds), .list h => fun rest _ => by
    have hitems := spells_writeItems (depth + 1) ds (List.forall_mem_cons.mp h).2
      (means_write (depth + 1) d (List.forall_mem_cons.mp h).1)
      (isBlank_lineBreak indent (depth + 1)) (isBlank_lineBreak indent depth) rest
    have hspells := Spells.list hitems
    -- the same text, with its brackets to the left
    simpa [write, tree, trees] using hspells
  | _, .table [], _ => fun _ _ => .emptyTable ⟨[], List.forall_mem_nil _, rfl⟩
  | depth, .table ((k, v) :: es), .table h => fun rest _ => by
    have hentries := spells_writeEntries (depth + 1) es (List.forall_mem_cons.mp h).2 k
      (means_write (depth + 1) v (List.forall_mem_cons.mp h).1)
      (isBlank_lineBreak indent (depth + 1)) (isBlank_lineBreak indent depth) rest
    have hspells := Spells.table hentries
    simpa [write, tree, entryTrees] using hspells

/-- An item, the further items behind it and the closing bracket. -/
theorem spells_writeItems : ∀ (depth : Nat) (ds : List Data), (∀ d ∈ ds, d.IsFinite) →
    ∀ {cs : List Char} {t : Tree}, Means cs t → ∀ {w w' : List Char}, IsBlank w → IsBlank w' →
    ∀ rest, SpellsItems (w ++ (cs ++ (writeItems indent depth ds ++ (w' ++ ']' :: rest))))
      (t :: trees ds) rest
  | _, [], _, _, _, hcs, _, _, hw, hw', _ =>
    .last (hcs.item hw hw' _ (lacks_cons.mpr (by decide)))
  | depth, d :: ds, h, cs, t, hcs, w, w', hw, hw', rest => by
    -- the comma belongs to the item before it, the white space to the item behind it
    obtain ⟨v, hv, hseparator⟩ := separator_eq indent depth
    have hitems := spells_writeItems depth ds (List.forall_mem_cons.mp h).2
      (means_write depth d (List.forall_mem_cons.mp h).1) hv hw' rest
    have hitem := hcs.item hw (List.forall_mem_nil _)
      (',' :: (v ++ (d.write indent depth ++ (writeItems indent depth ds ++ (w' ++ ']' :: rest)))))
      (lacks_cons.mpr (by decide))
    have hspells := SpellsItems.more hitem hitems
    simpa [writeItems, trees, hseparator] using hspells

/-- An entry, the further entries behind it and the closing brace. -/
theorem spells_writeEntries : ∀ (depth : Nat) (es : List (String × Data)),
    (∀ e ∈ es, e.2.IsFinite) → ∀ (key : String) {cs : List Char} {t : Tree}, Means cs t →
    ∀ {w w' : List Char}, IsBlank w → IsBlank w' → ∀ rest,
    SpellsEntries (w ++ (string key ++ ':' :: ([' '] ++ (cs ++
      (writeEntries indent depth es ++ (w' ++ '\x7d' :: rest))))))
      ((key, t) :: entryTrees es) rest
  | _, [], _, key, _, _, hcs, _, _, hw, hw', _ =>
    .last (spellsKey_string hw key _)
      (hcs.item (List.forall_mem_singleton.mpr rfl) hw' _ (lacks_cons.mpr (by decide)))
  | depth, (k, v) :: es, h, key, cs, t, hcs, w, w', hw, hw', rest => by
    obtain ⟨u, hu, hseparator⟩ := separator_eq indent depth
    have hentries := spells_writeEntries depth es (List.forall_mem_cons.mp h).2 k
      (means_write depth v (List.forall_mem_cons.mp h).1) hu hw' rest
    have hitem := hcs.item (w := [' ']) (List.forall_mem_singleton.mpr rfl) (List.forall_mem_nil _)
      (',' :: (u ++ (string k ++ ':' :: ([' '] ++ (v.write indent depth ++
        (writeEntries indent depth es ++ (w' ++ '\x7d' :: rest)))))))
      (lacks_cons.mpr (by decide))
    have hspells := SpellsEntries.more (spellsKey_string hw key _) hitem hentries
    simpa [writeEntries, entryTrees, hseparator] using hspells

end

/-! ### Written text is ASCII -/

mutual

theorem ascii_write : ∀ (depth : Nat) (d : Data), d.IsFinite → Ascii (d.write indent depth)
  | _, .null, _ => by simp [write]
  | _, .bool true, _ => by simp [write]
  | _, .bool false, _ => by simp [write]
  | _, .int i, _ => (spellsNumber_intText i).ascii
  | _, .double _, .double fits => (spellsNumber_text fits "NaN" "Infinity").ascii
  | _, .str s, _ => ascii_string s
  | _, .moment m, _ => ascii_string m.text
  | _, .list [], _ => by simp [write]
  | depth, .list (d :: ds), .list h => by
    have hfirst := ascii_write (depth + 1) d (List.forall_mem_cons.mp h).1
    have hothers := ascii_writeItems (depth + 1) ds (List.forall_mem_cons.mp h).2
    simp [write, hfirst, hothers]
  | _, .table [], _ => by simp [write]
  | depth, .table ((k, v) :: es), .table h => by
    have hfirst := ascii_write (depth + 1) v (List.forall_mem_cons.mp h).1
    have hothers := ascii_writeEntries (depth + 1) es (List.forall_mem_cons.mp h).2
    simp [write, hfirst, hothers]

theorem ascii_writeItems : ∀ (depth : Nat) (ds : List Data), (∀ d ∈ ds, d.IsFinite) →
    Ascii (writeItems indent depth ds)
  | _, [], _ => ascii_nil
  | depth, d :: ds, h => by
    have hfirst := ascii_write depth d (List.forall_mem_cons.mp h).1
    have hothers := ascii_writeItems depth ds (List.forall_mem_cons.mp h).2
    simp [writeItems, hfirst, hothers]

theorem ascii_writeEntries : ∀ (depth : Nat) (es : List (String × Data)),
    (∀ e ∈ es, e.2.IsFinite) → Ascii (writeEntries indent depth es)
  | _, [], _ => ascii_nil
  | depth, (k, v) :: es, h => by
    have hfirst := ascii_write depth v (List.forall_mem_cons.mp h).1
    have hothers := ascii_writeEntries depth es (List.forall_mem_cons.mp h).2
    simp [writeEntries, hfirst, hothers]

end

/-- Data without integers of too many digits and with finite doubles only is written in ASCII, and
the text stands for the data and for nothing else. -/
theorem document_toJson (indent : Option Nat) {d : Data} (hfinite : d.IsFinite)
    (hshort : d.overlong = false) :
    ∃ text, d.toJson indent = .ok text ∧ Ascii text.toList ∧
      ∀ t, Document text.toList t ↔ t = d.tree := by
  refine ⟨String.ofList (d.write indent 0), by rw [toJson, hshort]; rfl, ?_, fun t => ?_⟩
  · rw [String.toList_ofList]
    exact ascii_write 0 d hfinite
  · have hdocument : Document (d.write indent 0) d.tree := by
      have hmeans : Means (d.write indent 0) d.tree := means_write 0 d hfinite
      have hitem := hmeans.item (List.forall_mem_nil _) (List.forall_mem_nil _) []
        (lacks_nil isNumberChar)
      simpa [Document] using hitem
    rw [String.toList_ofList]
    exact ⟨fun h => h.unique hdocument, fun h => h ▸ hdocument⟩

/-! ### Integers of too many digits -/

theorem anyOverlong_eq_false {ds : List Data} (h : ∀ d ∈ ds, d.overlong = false) :
    anyOverlong ds = false := by
  induction ds with
  | nil => rfl
  | cons d ds ih =>
    rw [List.forall_mem_cons] at h
    rw [anyOverlong, h.1, ih h.2]
    rfl

theorem anyEntryOverlong_eq_false {es : List (String × Data)} (h : ∀ e ∈ es, e.2.overlong = false) :
    anyEntryOverlong es = false := by
  induction es with
  | nil => rfl
  | cons e es ih =>
    rw [List.forall_mem_cons] at h
    rw [anyEntryOverlong, h.1, ih h.2]
    rfl

end Data

/-! ## Application records -/

/-- Values that JSON has numbers for: finite doubles, and integers that are not too long. -/
def Value.IsWritable : Value → Prop
  | .number (.int i) => i.natAbs < Nat.pow 10 Text.digitLimit
  | .number (.double d) => ∃ negative quanta fits, d = .finite negative quanta fits
  | _ => True

/-- What a value stands for in JSON: a function for the text that shows it. -/
def Value.tree : Value → Json.Tree
  | .null => .null
  | .bool b => .bool b
  | .number (.int i) => .int i
  | .number (.double d) => .real d.text
  | .str s => .str s
  | .closure f => .str (functionText f.name)
  | .builtin f => .str (functionText f.name)

/-- A field that is unset or a text. -/
def Data.IsOptionalText (d : Data) : Prop := d = .null ∨ ∃ s, d = .str s

namespace App

/-- Records whose fields are of their sorts and whose content can be written. -/
structure IsWritable (a : App) : Prop where
  name : a.name.IsOptionalText
  isWebPackage : ∃ b, a.isWebPackage = .bool b
  webVersion : a.webVersion.IsOptionalText
  miniVersion : a.miniVersion.IsOptionalText
  iconPath : a.iconPath.IsOptionalText
  content : ∀ s, a.body = some s → ∀ v ∈ s.content.toList, v.IsWritable

end App

theorem Value.tree_toData (v : Value) : v.toData.tree = v.tree := by
  rcases v with _ | _ | (_ | _) | _ | _ | _ <;> rfl

/-- A function stands for what it is displayed as. -/
theorem Value.display_of_function (v : Value) (h : v.typeName = "function") :
    ∃ shown, v.display = .ok shown ∧ v.tree = .str shown := by
  cases v with
  | closure f => exact ⟨_, rfl, rfl⟩
  | builtin f => exact ⟨_, rfl, rfl⟩
  | null | bool | number | str => simp [typeName] at h

theorem Value.IsWritable.isFinite {v : Value} (h : v.IsWritable) : v.toData.IsFinite := by
  rcases v with _ | b | (i | d) | s | f | f
  · exact .null
  · exact .bool b
  · exact .int i
  · obtain ⟨negative, quanta, fits, rfl⟩ := h
    exact .double fits
  · exact .str s
  · exact .str _
  · exact .str _

theorem Value.IsWritable.overlong {v : Value} (h : v.IsWritable) : v.toData.overlong = false := by
  rcases v with _ | b | (i | d) | s | f | f
  case number.int =>
    rw [IsWritable] at h
    rw [toData, Data.overlong]
    exact decide_eq_false (Nat.not_le_of_lt h)
  all_goals rfl

theorem Data.IsOptionalText.isFinite {d : Data} (h : d.IsOptionalText) : d.IsFinite := by
  obtain rfl | ⟨s, rfl⟩ := h
  · exact .null
  · exact .str s

theorem Data.IsOptionalText.overlong {d : Data} (h : d.IsOptionalText) : d.overlong = false := by
  obtain rfl | ⟨s, rfl⟩ := h <;> rfl

namespace Data

theorem trees_map (vs : List Value) : trees (vs.map Value.toData) = vs.map Value.tree := by
  induction vs with
  | nil => rfl
  | cons v vs ih => rw [List.map_cons, trees, Value.tree_toData, ih, List.map_cons]

end Data

namespace App

variable {a : App}

theorem IsWritable.isFinite (h : a.IsWritable) : a.toData.IsFinite := by
  have hbody : ((a.body.map sectionData).getD .null).IsFinite := by
    cases hs : a.body with
    | none => exact .null
    | some s =>
      refine .table (List.forall_mem_cons.mpr ⟨.str _, List.forall_mem_singleton.mpr (.list ?_)⟩)
      simpa using fun v hv => (h.content s hs v (by simpa using hv)).isFinite
  obtain ⟨b, hb⟩ := h.isWebPackage
  refine .table ?_
  simp [hb, h.name.isFinite, h.webVersion.isFinite, h.miniVersion.isFinite, h.iconPath.isFinite,
    hbody, Data.IsFinite.bool]

theorem IsWritable.overlong (h : a.IsWritable) : a.toData.overlong = false := by
  have hbody : ((a.body.map sectionData).getD .null).overlong = false := by
    cases hs : a.body with
    | none => rfl
    | some s =>
      have hcontent : Data.anyOverlong (s.content.toList.map Value.toData) = false :=
        Data.anyOverlong_eq_false
          (by simpa using fun v hv => (h.content s hs v (by simpa using hv)).overlong)
      simpa [sectionData, Data.overlong, Data.anyEntryOverlong] using hcontent
  obtain ⟨b, hb⟩ := h.isWebPackage
  refine Data.anyEntryOverlong_eq_false ?_
  simp [hb, h.name.overlong, h.webVersion.overlong, h.miniVersion.overlong, h.iconPath.overlong,
    hbody, Data.overlong]

/-- The text of a record is ASCII and a JSON text, on one line or indented, and what it stands for
is the record and nothing else: its six keys in order, texts character by character, integers as
they are, doubles as their literals and functions as the texts that display them. -/
theorem decodes_toJson (a : App) (h : a.IsWritable) (indent : Option Nat) :
    ∃ text, a.toJson indent = .ok text ∧ (∀ c ∈ text.toList, c.toNat < 128) ∧
      (∀ t, Json.Document text.toList t ↔ t = a.toData.tree) ∧
      a.toData.tree = .table [
        ("name", a.name.tree),
        ("isWebPackage", a.isWebPackage.tree),
        ("webVersion", a.webVersion.tree),
        ("miniVersion", a.miniVersion.tree),
        ("iconPath", a.iconPath.tree),
        ("body", (a.body.map fun s => Json.Tree.table [
          ("styleReference", .str s.style),
          ("content", .list (s.content.toList.map Value.tree))]).getD .null)] ∧
      ∀ v : Value, v.typeName = "function" →
        ∃ shown, v.display = .ok shown ∧ v.tree = .str shown := by
  obtain ⟨text, htext, hascii, hdecodes⟩ := Data.document_toJson indent h.isFinite h.overlong
  refine ⟨text, htext, hascii, hdecodes, ?_, fun v hv => v.display_of_function hv⟩
  cases hs : a.body <;> simp [toData, hs, sectionData, Data.tree, Data.trees_map, Data.entryTrees]

/-- The negative double that is nearest to zero. -/
def least : Double := .finite true 1 ⟨by decide +kernel, by decide +kernel⟩

/-- A record with characters that are written in all ways, and with numbers and a function. -/
def sampler : App where
  name := .str "\"\\\n\x7fé𝄞"
  isWebPackage := .bool true
  webVersion := .str ""
  body := some {
    style := "s"
    content := #[.null, .bool false, .number (.int (-12)), .number (.double least), .str "x",
      .builtin ⟨0, "print", .print⟩] }

theorem isWritable_sampler : sampler.IsWritable where
  name := .inr ⟨_, rfl⟩
  isWebPackage := ⟨true, rfl⟩
  webVersion := .inr ⟨_, rfl⟩
  miniVersion := .inl rfl
  iconPath := .inl rfl
  content := by
    intro s hs
    obtain rfl := Option.some.inj hs
    have hint : (Value.number (.int (-12))).IsWritable := by
      rw [Value.IsWritable]
      decide +kernel
    have hdouble : (Value.number (.double least)).IsWritable := ⟨_, _, _, rfl⟩
    simp only [List.forall_mem_cons]
    exact ⟨trivial, trivial, hint, hdouble, trivial, trivial, List.forall_mem_nil _⟩

theorem decodes_toJson_sampler :
    sampler.toJson none = .ok ("\x7b\"name\": \"\\\"\\\\\\n\\u007f\\u00e9\\ud834\\udd1e\", " ++
      "\"isWebPackage\": true, \"webVersion\": \"\", \"miniVersion\": null, \"iconPath\": null, " ++
      "\"body\": \x7b\"styleReference\": \"s\", " ++
      "\"content\": [null, false, -12, -5e-324, \"x\", \"<func print>\"]\x7d\x7d") ∧
    ∃ text, sampler.toJson none = .ok text ∧ ∀ t, Json.Document text.toList t ↔ t = .table [
      ("name", .str "\"\\\n\x7fé𝄞"), ("isWebPackage", .bool true), ("webVersion", .str ""),
      ("miniVersion", .null), ("iconPath", .null),
      ("body", .table [("styleReference", .str "s"),
        ("content", .list [.null, .bool false, .int (-12), .real "-5e-324", .str "x",
          .str "<func print>"])])] := by
  obtain ⟨text, htext, -, hdecodes, htree, -⟩ := decodes_toJson sampler isWritable_sampler none
  have hreal : least.text = "-5e-324" := by decide +kernel
  refine ⟨by decide +kernel, text, htext, fun t => (hdecodes t).trans ?_⟩
  rw [htree, ← hreal]
  rfl

end App

end MiniApp
