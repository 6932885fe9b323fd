import MiniApp.Proofs.Lint.Naming
import MiniApp.Proofs.Lint.Schedule
import MiniApp.Proofs.Lint.Search

/-!
# What is found, and where

Every finding of the default rules has a place in the text: a line there is, a column within this
line, and at that column what the rule is about. A rule reports under its own name, so that its
findings among those of others are the ones it has alone. Two of the rules are about lines as a
whole, and each of these reports just the lines that break it, once.

## Main definitions

* `Lint.Rule.Signs`: a rule reports under its own name
* `Lint.Shows`: what a rule names, with the text before it in its line
* `Lint.Finding.Located`: a finding has a place in a text, and what its rule names is there

## Main results

* `Lint.filter_findings`: the findings of one rule among others
* `Lint.located_of_mem_findings`: every finding has its place
* `Lint.lint_findings`: findings are in range and exact
-/

namespace MiniApp.Lint

variable {rules : List Rule} {r : Rule} {id path source line : String} {n : Nat} {limit : Int}
variable {s : Settings} {f : Finding} {found : List Finding}

/-! ## One rule among others -/

/-- What is found bears a name. -/
def Outcome.Signed (id : String) (o : Outcome) : Prop :=
  ∀ found, o = .ok found → ∀ f ∈ found, f.rule = id

/-- A rule reports under its own name. -/
def Rule.Signs (r : Rule) : Prop :=
  match r.check with
  | .line check => ∀ line n, Outcome.Signed r.id (check line n)
  | .file check => ∀ source, Outcome.Signed r.id (check source)

theorem mem_findings_call {c : Call} :
    f ∈ c.findings ↔ ∃ found, c.outcome = .ok found ∧ f ∈ found := by
  rw [Call.findings]
  cases c.outcome <;> simp

theorem mem_calls {c : Call} :
    c ∈ calls rules source ↔ ∃ slot : Slot, slot.Makes rules source c := by
  rw [← map_schedule, List.mem_map]
  simp only [Prod.exists, exists_eq_right, ← mem_schedule]

/-- The findings in a call of rules that report under their own names bear the name of its rule. -/
theorem rule_of_mem_findings (h : ∀ r ∈ rules, r.Signs) {c : Call} (hc : c ∈ calls rules source)
    (hmem : f ∈ c.findings) : f.rule = c.rule := by
  obtain ⟨found, hfound, hf⟩ := mem_findings_call.mp hmem
  obtain ⟨slot, hmakes⟩ := mem_calls.mp hc
  cases hmakes with
  | @line i n r check line hi hcheck _ =>
    have hsigns := h r (List.mem_of_getElem? hi)
    rw [Rule.Signs, hcheck] at hsigns
    exact hsigns line n found hfound f hf
  | @file i r check hi hcheck =>
    have hsigns := h r (List.mem_of_getElem? hi)
    rw [Rule.Signs, hcheck] at hsigns
    exact hsigns source found hfound f hf

/-- The calls of the rules of one name. -/
theorem filter_calls (rules : List Rule) (id source : String) :
    (calls rules source).filter (·.rule = id) = calls (rules.filter (·.id = id)) source := by
  have hline (line : String) (n : Nat) : (lineCalls rules line n).filter (·.rule = id) =
      lineCalls (rules.filter (·.id = id)) line n := by
    rw [lineCalls, lineCalls, List.filter_filterMap, List.filterMap_filter]
    refine List.filterMap_congr fun r _ => ?_
    cases r.lineCheck? <;> simp [Option.filter]
  have hfile : (fileCalls rules source).filter (·.rule = id) =
      fileCalls (rules.filter (·.id = id)) source := by
    rw [fileCalls, fileCalls, List.filter_filterMap, List.filterMap_filter]
    refine List.filterMap_congr fun r _ => ?_
    cases r.fileCheck? <;> simp [Option.filter]
  rw [calls, calls, List.filter_append, List.filter_flatMap, hfile]
  simp only [hline]

/-- The findings of one name are those in the calls of rules of that name. -/
theorem filter_flatMap_findings {cs : List Call}
    (h : ∀ c ∈ cs, ∀ f ∈ c.findings, f.rule = c.rule) (id : String) :
    (cs.flatMap Call.findings).filter (·.rule = id) =
      (cs.filter (·.rule = id)).flatMap Call.findings := by
  induction cs with
  | nil => rfl
  | cons c cs ih =>
    obtain ⟨hc, hcs⟩ := List.forall_mem_cons.mp h
    rw [List.flatMap_cons, List.filter_append, ih hcs]
    by_cases hid : c.rule = id
    · rw [List.filter_cons_of_pos (by simpa using hid), List.flatMap_cons,
        List.filter_eq_self.mpr fun f hf => by simp [hc f hf, hid]]
    · rw [List.filter_cons_of_neg (by simpa using hid),
        List.filter_eq_nil_iff.mpr fun f hf => by simp [hc f hf, hid], List.nil_append]

/-- What rules of one name find beside others is what they find alone. -/
theorem filter_findings (h : ∀ r ∈ rules, r.Signs) (id path source : String) :
    (lint rules path source).findings.filter (·.rule = id) =
      (lint (rules.filter (·.id = id)) path source).findings := by
  have hcalls := filter_flatMap_findings
    (fun c (hc : c ∈ calls rules source) f hf => rule_of_mem_findings h hc hf) id
  simp only [lint, List.filter_map, ← filter_calls]
  exact congrArg _ hcalls

/-- What is found is found by some rule alone. -/
theorem exists_rule_of_mem_findings (h : f ∈ (lint rules path source).findings) :
    ∃ r ∈ rules, f ∈ (lint [r] path source).findings := by
  obtain ⟨g, hg, rfl⟩ := List.mem_map.mp h
  obtain ⟨c, hc, hg⟩ := List.mem_flatMap.mp hg
  obtain ⟨slot, hmakes⟩ := mem_calls.mp hc
  have halone {r : Rule} {slot : Slot} (hmakes : slot.Makes [r] source c) :
      { g with path := path } ∈ (lint [r] path source).findings :=
    List.mem_map_of_mem (List.mem_flatMap_of_mem (mem_calls.mpr ⟨slot, hmakes⟩) hg)
  cases hmakes with
  | @line i _ r _ _ hi hcheck hline =>
    exact ⟨r, List.mem_of_getElem? hi, halone (.line (i := 0) rfl hcheck hline)⟩
  | @file i r _ hi hcheck =>
    exact ⟨r, List.mem_of_getElem? hi, halone (.file (i := 0) rfl hcheck)⟩

/-! ## A rule alone -/

/-- The calls of a line rule alone. -/
theorem calls_line {check : String → Nat → Outcome} (h : r.check = .line check) (source : String) :
    calls [r] source = (numberedLines source).map fun (line, n) => ⟨r.id, check line n⟩ := by
  rw [calls, List.map_eq_flatMap]
  simp [lineCalls, fileCalls, Rule.lineCheck?, Rule.fileCheck?, h]

/-- The only call of a file rule alone. -/
theorem calls_file {check : String → Outcome} (h : r.check = .file check) (source : String) :
    calls [r] source = [⟨r.id, check source⟩] := by
  simp [calls, lineCalls, fileCalls, Rule.lineCheck?, Rule.fileCheck?, h]

/-- What a line rule finds alone it finds in some line. -/
theorem exists_line_of_mem_findings {check : String → Nat → Outcome} (h : r.check = .line check)
    (hf : f ∈ (lint [r] path source).findings) : ∃ line n found g,
      (line, n) ∈ numberedLines source ∧ check line n = .ok found ∧ g ∈ found ∧
      f = { g with path := path } := by
  obtain ⟨g, hg, rfl⟩ := List.mem_map.mp hf
  rw [calls_line h, List.flatMap_map] at hg
  obtain ⟨⟨line, n⟩, hline, hg⟩ := List.mem_flatMap.mp hg
  obtain ⟨found, hfound, hg⟩ := mem_findings_call.mp hg
  exact ⟨line, n, found, g, hline, hfound, hg, rfl⟩

/-- What a file rule finds alone it finds in the text. -/
theorem exists_found_of_mem_findings {check : String → Outcome} (h : r.check = .file check)
    (hf : f ∈ (lint [r] path source).findings) :
    ∃ found g, check source = .ok found ∧ g ∈ found ∧ f = { g with path := path } := by
  obtain ⟨g, hg, rfl⟩ := List.mem_map.mp hf
  rw [calls_file h, List.flatMap_singleton] at hg
  obtain ⟨found, hfound, hg⟩ := mem_findings_call.mp hg
  exact ⟨found, g, hfound, hg, rfl⟩

/-- A rule that reports a line or does not: it reports just the lines that break it, once each. -/
theorem map_line_findings {check : String → Nat → Outcome} (h : r.check = .line check)
    (breaks : String → Bool) (hcheck : ∀ line n, breaks line = false ∧ check line n = .ok [] ∨
      breaks line = true ∧ ∃ f : Finding, f.line = n ∧ check line n = .ok [f])
    (path source : String) : (lint [r] path source).findings.map (·.line) =
      ((numberedLines source).filter (breaks ·.1)).map (·.2) := by
  have hlines : ∀ ls : List (String × Nat),
      ((ls.map fun e => Call.mk r.id (check e.1 e.2)).flatMap Call.findings).map (·.line) =
        (ls.filter (breaks ·.1)).map (·.2) := by
    intro ls
    induction ls with
    | nil => rfl
    | cons e ls ih =>
      rw [List.map_cons, List.flatMap_cons, List.map_append, ih, Call.findings]
      rcases hcheck e.1 e.2 with ⟨hbreaks, hfound⟩ | ⟨hbreaks, f, hf, hfound⟩
      · rw [List.filter_cons_of_neg (by simp [hbreaks]), hfound, List.map_nil, List.nil_append]
      · rw [List.filter_cons_of_pos (by simpa using hbreaks), hfound, List.map_cons,
          List.map_cons, hf]
        rfl
  have hpath : ((·.line) ∘ fun f : Finding => { f with path := path }) = Finding.line := rfl
  rw [lint, calls_line h, List.map_map, hpath]
  exact hlines _

/-! ## The default rules -/

theorem signed_nil (id : String) : Outcome.Signed id (.ok []) := by
  rintro _ ⟨⟩ f hf
  cases hf

/-- A rule that reports one thing or nothing. -/
theorem signed_ite {p : Prop} [Decidable p] (h : f.rule = id) :
    Outcome.Signed id (if p then .ok [] else .ok [f]) := by
  split
  · exact signed_nil id
  · rintro _ ⟨⟩ g hg
    rwa [List.mem_singleton.mp hg]

/-- The default rules report under their own names. -/
theorem signs_of_mem_allRules (h : r ∈ allRules s) : r.Signs := by
  simp only [allRules, List.mem_cons, List.not_mem_nil, or_false] at h
  rcases h with rfl | rfl | rfl | rfl | rfl
  · exact fun _ _ => signed_ite rfl
  · exact fun _ _ => signed_ite rfl
  · intro line n
    dsimp only
    split
    · exact signed_nil _
    · exact signed_ite rfl
  · exact fun _ => signed_ite rfl
  · rintro source _ ⟨⟩ f hf
    obtain ⟨_, _, hf⟩ := List.mem_flatMap.mp hf
    obtain ⟨_, _, rfl⟩ := List.mem_map.mp hf
    rfl

theorem signs_of_mem_defaultRules (h : r ∈ defaultRules s) : r.Signs :=
  signs_of_mem_allRules (List.mem_of_mem_filter h)

/-- The default rules have different names. -/
theorem filter_allRules (h : r ∈ allRules s) : (allRules s).filter (·.id = r.id) = [r] := by
  simp only [allRules, List.mem_cons, List.not_mem_nil, or_false] at h
  rcases h with rfl | rfl | rfl | rfl | rfl <;> rfl

/-- What a default rule that is allowed finds beside the others is what it finds alone. -/
theorem filter_findings_defaultRules (hr : r ∈ allRules s) (hallows : s.allows r.id = true)
    (path source : String) : (lint (defaultRules s) path source).findings.filter (·.rule = r.id) =
      (lint [r] path source).findings := by
  have halone : (defaultRules s).filter (·.id = r.id) = [r] := by
    rw [defaultRules, List.filter_comm, filter_allRules hr,
      List.filter_cons_of_pos (by simpa using hallows), List.filter_nil]
  rw [filter_findings (fun q => signs_of_mem_defaultRules), halone]

/-- What is found under the name of a default rule is found by that rule alone. -/
theorem mem_findings_of_rule (hr : r ∈ allRules s) (hrule : f.rule = r.id)
    (h : f ∈ (lint (defaultRules s) path source).findings) :
    f ∈ (lint [r] path source).findings := by
  have hmem : f ∈ (lint (defaultRules s) path source).findings.filter (·.rule = r.id) :=
    List.mem_filter.mpr ⟨h, by simpa using hrule⟩
  rw [filter_findings (fun q => signs_of_mem_defaultRules), defaultRules, List.filter_comm,
    filter_allRules hr] at hmem
  obtain ⟨q, hq, hf⟩ := exists_rule_of_mem_findings hmem
  obtain rfl := List.mem_singleton.mp (List.mem_of_mem_filter hq)
  exact hf

/-! ## Places -/

/-- What a rule names, with the text before it in its line: the character behind the limit and all
that follows, the white space at the end, one of two phrases, or a name with a hyphen behind a
declaring keyword that stands at the start of a word. -/
inductive Shows (limit : Int) : String → List Char → List Char → Prop
  | beyond {before rest : List Char} {c : Char} : (before.length : Int) = limit →
      Shows limit "line-length" before (c :: rest)
  | blanks {before rest : List Char} {b : Char} :
      (∀ c ∈ before.getLast?, Text.isBlank c = false) → (∀ c ∈ b :: rest, Text.isBlank c = true) →
      Shows limit "trailing-whitespace" before (b :: rest)
  | heading {before rest : List Char} :
      Shows limit "homy-body-style-syntax" before ("body@".toList ++ rest)
  | package {before rest : List Char} :
      Shows limit "homy-web-package-version-sync" before ("web_package_mini()".toList ++ rest)
  | name {before ws word rest : List Char} {w : Char} {keyword : String} :
      (∀ c ∈ before.getLast?, Text.isWordChar c = false) → keyword ∈ declaringKeywords →
      ws ≠ [] → (∀ b ∈ ws, Text.isBlank b = true) → Lexical.isWordStart w = true →
      (∀ c ∈ word, Lexical.isWordPart c = true) → '-' ∈ w :: word →
      (∀ c ∈ rest.head?, Lexical.isWordPart c = false) →
      Shows limit "homy-naming-convention" (before ++ (keyword.toList ++ ws)) (w :: word ++ rest)

/-- The finding has a place in the text, and what its rule names is there. -/
def Finding.Located (limit : Int) (source : String) (f : Finding) : Prop :=
  ∃ line before rest, (line, f.line) ∈ numberedLines source ∧ line.toList = before ++ rest ∧
    f.column = before.length + 1 ∧ Shows limit f.rule before rest

theorem Shows.ne_nil {before rest : List Char} (h : Shows limit id before rest) : rest ≠ [] := by
  cases h with
  | beyond | blanks | name => exact List.cons_ne_nil _ _
  | heading | package => exact List.append_ne_nil_of_left_ne_nil (by decide) _

/-- A place is within a line. -/
theorem Finding.Located.range (h : f.Located limit source) :
    1 ≤ f.line ∧ f.line ≤ (Text.lines source).length ∧
    ∃ line, (Text.lines source)[f.line - 1]? = some line ∧
      1 ≤ f.column ∧ f.column ≤ line.length := by
  obtain ⟨line, before, rest, hline, htext, hcolumn, hshows⟩ := h
  obtain ⟨hpos, hline⟩ := mem_numberedLines.mp hline
  obtain ⟨hlt, -⟩ := List.getElem?_eq_some_iff.mp hline
  have hrest := List.length_pos_iff.mpr hshows.ne_nil
  have hlength : line.length = before.length + rest.length := by
    rw [← String.length_toList, htext, List.length_append]
  exact ⟨hpos, by omega, line, hline, by omega, by omega⟩

/-- What a rule that reports one thing or nothing has found. -/
theorem eq_of_mem_ite {p : Prop} [Decidable p] {f g : Finding}
    (h : (if p then .ok [] else .ok [f] : Outcome) = .ok found) (hg : g ∈ found) : ¬ p ∧ g = f := by
  split at h
  · cases h
    cases hg
  · next hp =>
    cases h
    exact ⟨hp, List.mem_singleton.mp hg⟩

theorem located_of_lineLength (hlimit : 1 ≤ limit)
    (h : f ∈ (lint [lineLength limit] path source).findings) : f.Located limit source := by
  obtain ⟨line, n, found, g, hline, hfound, hg, rfl⟩ := exists_line_of_mem_findings rfl h
  obtain ⟨hlong, rfl⟩ := eq_of_mem_ite hfound hg
  rw [← String.length_toList] at hlong
  have hlt : limit.toNat < line.toList.length := by omega
  have htext : line.toList = line.toList.take limit.toNat ++
      line.toList[limit.toNat] :: line.toList.drop (limit.toNat + 1) := by
    rw [← List.drop_eq_getElem_cons hlt, List.take_append_drop]
  have hlength : ((line.toList.take limit.toNat).length : Int) = limit := by
    rw [List.length_take]
    omega
  exact ⟨line, _, _, hline, htext, by rw [hlength], .beyond hlength⟩

theorem located_of_trailingWhitespace
    (h : f ∈ (lint [trailingWhitespace] path source).findings) : f.Located limit source := by
  obtain ⟨line, n, found, g, hline, hfound, hg, rfl⟩ := exists_line_of_mem_findings rfl h
  obtain ⟨hends, rfl⟩ := eq_of_mem_ite hfound hg
  obtain ⟨rest, htext, hrest, hkept⟩ := Text.trimBlanksEnd_append line.toList
  cases rest with
  | nil =>
    rw [List.append_nil] at htext
    rw [← htext, String.length_toList] at hends
    exact absurd rfl hends
  | cons b rest => exact ⟨line, _, _, hline, htext, rfl, .blanks hkept hrest⟩

theorem located_of_bodyStyle
    (h : f ∈ (lint [bodyStyle] path source).findings) : f.Located limit source := by
  obtain ⟨line, n, found, g, hline, hfound, hg, rfl⟩ := exists_line_of_mem_findings rfl h
  split at hfound
  · cases hfound
    cases hg
  · next index hindex =>
    obtain ⟨-, rfl⟩ := eq_of_mem_ite hfound hg
    obtain ⟨before, rest, htext, rfl⟩ := Text.exists_append_of_find? hindex
    exact ⟨line, before, _, hline, htext, rfl, .heading⟩

theorem located_of_versionSync
    (h : f ∈ (lint [versionSync] path source).findings) : f.Located limit source := by
  obtain ⟨found, g, hfound, hg, rfl⟩ := exists_found_of_mem_findings rfl h
  obtain ⟨hoccurs, rfl⟩ := eq_of_mem_ite hfound hg
  simp only [Bool.or_eq_true, Bool.not_eq_true', not_or, Bool.not_eq_false] at hoccurs
  obtain ⟨line, n, index, hline, hindex, hplace⟩ :=
    exists_firstPlace (by decide) (Text.occursIn_iff.mp hoccurs.1)
  obtain ⟨before, rest, htext, rfl⟩ := Text.exists_append_of_find? hindex
  rw [hplace]
  exact ⟨line, before, _, hline, htext, rfl, .package⟩

/-- What is found in a line is a declaration at its place, at the start of a word. -/
theorem exists_declaration_of_mem {skip i : Nat} {previous : Option Char} {cs : List Char}
    {x : Declaration × Nat} (h : x ∈ declarations skip previous i cs) :
    ∃ before rest keyword, cs = before ++ rest ∧ keyword ∈ declaringKeywords ∧
      declarationBy? keyword rest = some x.1 ∧ x.2 = i + before.length + x.1.offset ∧
      (before.getLast?.or previous).any Text.isWordChar = false := by
  induction cs generalizing skip previous i with
  | nil => simp [declarations] at h
  | cons c cs ih =>
    -- what is found behind the first character
    have hbehind {skip : Nat} (h : x ∈ declarations skip (some c) (i + 1) cs) :
        ∃ before rest keyword, c :: cs = before ++ rest ∧ keyword ∈ declaringKeywords ∧
          declarationBy? keyword rest = some x.1 ∧ x.2 = i + before.length + x.1.offset ∧
          (before.getLast?.or previous).any Text.isWordChar = false := by
      obtain ⟨before, rest, keyword, rfl, hkeyword, hd, hplace, hlast⟩ := ih h
      refine ⟨c :: before, rest, keyword, rfl, hkeyword, hd, ?_, ?_⟩
      · rw [List.length_cons]
        omega
      · rwa [getLast?_cons_or]
    cases skip with
    | succ skip => exact hbehind h
    | zero =>
      cases hfound : leading previous (c :: cs) with
      | none =>
        rw [declarations_zero_none hfound] at h
        exact hbehind h
      | some d =>
        rw [declarations_zero_some hfound] at h
        rcases List.mem_cons.mp h with rfl | h
        · obtain ⟨keyword, hkeyword, hd⟩ := exists_keyword_of_leading hfound
          refine ⟨[], _, keyword, rfl, hkeyword, hd, rfl, ?_⟩
          rw [leading] at hfound
          by_contra hword
          rw [if_pos (by simpa using hword)] at hfound
          cases hfound
        · exact hbehind h

theorem located_of_namingConvention
    (h : f ∈ (lint [namingConvention] path source).findings) : f.Located limit source := by
  obtain ⟨found, g, hfound, hg, rfl⟩ := exists_found_of_mem_findings rfl h
  cases hfound
  obtain ⟨⟨line, n⟩, hline, hg⟩ := List.mem_flatMap.mp hg
  obtain ⟨⟨d, index⟩, hd, rfl⟩ := List.mem_map.mp hg
  obtain ⟨hmem, hhyphen⟩ := List.mem_filter.mp hd
  -- the finding points to the name, and the keyword before it is what makes it one
  obtain ⟨before, rest, keyword, htext, hkeyword, hd, hplace, hlast⟩ :=
    exists_declaration_of_mem hmem
  obtain ⟨ws, w, word, rest, rfl, hne, hws, hw, hword, hstop, rfl⟩ :=
    declarationBy?_eq_some_iff.mp hd
  have hhyphen : '-' ∈ w :: word := by simpa using hhyphen
  refine ⟨line, before ++ (keyword.toList ++ ws), w :: word ++ rest, hline, by simp [htext], ?_,
    .name ?_ hkeyword hne hws hw hword hhyphen hstop⟩
  · simp only [hyphenated, List.length_append, String.length_toList] at hplace ⊢
    omega
  · intro c hc
    simpa [Option.mem_def.mp hc] using hlast

/-- Every finding of the default rules has its place. -/
theorem located_of_mem_findings (hlimit : 1 ≤ s.maxLineLength)
    (h : f ∈ (lint (defaultRules s) path source).findings) : f.Located s.maxLineLength source := by
  obtain ⟨r, hr, h⟩ := exists_rule_of_mem_findings h
  have hr := List.mem_of_mem_filter hr
  simp only [allRules, List.mem_cons, List.not_mem_nil, or_false] at hr
  rcases hr with rfl | rfl | rfl | rfl | rfl
  · exact located_of_lineLength hlimit h
  · exact located_of_trailingWhitespace h
  · exact located_of_bodyStyle h
  · exact located_of_versionSync h
  · exact located_of_namingConvention h

/-! ## Lines that break a rule -/

/-- Just the lines of more characters than the limit are too long. -/
theorem lines_lineLength (limit : Int) (path source : String) :
    (lint [lineLength limit] path source).findings.map (·.line) =
      ((numberedLines source).filter fun e => limit < e.1.length).map (·.2) := by
  refine map_line_findings rfl (fun line => limit < line.length) (fun line n => ?_) path source
  split
  · next hle => exact .inl ⟨by simpa using hle, rfl⟩
  · next hlong => exact .inr ⟨by simpa using hlong, _, rfl, rfl⟩

/-- Just the lines whose last character is white space end in it. -/
theorem lines_trailingWhitespace (path source : String) :
    (lint [trailingWhitespace] path source).findings.map (·.line) =
      ((numberedLines source).filter fun e => e.1.toList.getLast?.any Text.isBlank).map (·.2) := by
  refine map_line_findings rfl (·.toList.getLast?.any Text.isBlank) (fun line n => ?_) path source
  rw [← String.length_toList]
  dsimp only
  split
  · next hkept => exact .inl ⟨Text.length_trimBlanksEnd_eq_iff.mp hkept, rfl⟩
  · next hends =>
    rw [Text.length_trimBlanksEnd_eq_iff, Bool.not_eq_false] at hends
    exact .inr ⟨hends, _, rfl, rfl⟩

/-- What the version rule reports at the start of the text is there. -/
theorem starts_of_versionSync (hlimit : 1 ≤ s.maxLineLength)
    (hf : f ∈ (lint (defaultRules s) path source).findings)
    (hrule : f.rule = "homy-web-package-version-sync") (hline : f.line = 1)
    (hcolumn : f.column = 1) : "web_package_mini()".toList <+: source.toList := by
  obtain ⟨line, before, rest, hmem, htext, hplace, hshows⟩ := located_of_mem_findings hlimit hf
  rw [hline] at hmem
  -- nothing stands before the first column
  have hbefore : before = [] := List.eq_nil_of_length_eq_zero (by omega)
  rw [hbefore, List.nil_append] at htext
  rw [hrule] at hshows
  generalize hid : "homy-web-package-version-sync" = id at hshows
  cases hshows with
  | package =>
    have hstart := prefix_of_mem_numberedLines hmem
    rw [htext] at hstart
    exact (List.prefix_append _ _).trans hstart
  | _ => exact absurd hid (by decide)

/-- The findings of the default rules, for a limit of at least one character: each has a line of the
text and a column within this line, and what its rule names is there. The rules about the length and
the end of lines, when they are allowed, report just the lines that break them, once each. The
version rule reports the start of the text only if what it is about is there. -/
theorem lint_findings (s : Settings) (hlimit : 1 ≤ s.maxLineLength) (path source : String) :
    (∀ f ∈ (lint (defaultRules s) path source).findings,
      1 ≤ f.line ∧ f.line ≤ (Text.lines source).length ∧
      ∃ line, (Text.lines source)[f.line - 1]? = some line ∧
        1 ≤ f.column ∧ f.column ≤ line.length ∧
        ∃ before rest, line.toList = before ++ rest ∧ f.column = before.length + 1 ∧
          Shows s.maxLineLength f.rule before rest) ∧
    (s.allows "line-length" = true →
      ((lint (defaultRules s) path source).findings.filter (·.rule = "line-length")).map (·.line) =
        ((numberedLines source).filter fun e => s.maxLineLength < e.1.length).map (·.2)) ∧
    (s.allows "trailing-whitespace" = true →
      ((lint (defaultRules s) path source).findings.filter
          (·.rule = "trailing-whitespace")).map (·.line) =
        ((numberedLines source).filter fun e =>
          e.1.toList.getLast?.any Text.isBlank).map (·.2)) ∧
    (∀ f ∈ (lint (defaultRules s) path source).findings,
      f.rule = "homy-web-package-version-sync" → f.line = 1 → f.column = 1 →
      "web_package_mini()".toList <+: source.toList) := by
  refine ⟨fun f hf => ?_, fun hallows => ?_, fun hallows => ?_,
    fun f hf hrule hline hcolumn => starts_of_versionSync hlimit hf hrule hline hcolumn⟩
  · have hlocated := located_of_mem_findings hlimit hf
    obtain ⟨hpos, hle, line, hline, hcolumn, hwithin⟩ := hlocated.range
    obtain ⟨line', before, rest, hline', htext, hplace, hshows⟩ := hlocated
    obtain rfl := Option.some.inj (hline.symm.trans (mem_numberedLines.mp hline').2)
    exact ⟨hpos, hle, line, hline, hcolumn, hwithin, before, rest, htext, hplace, hshows⟩
  · rw [← lines_lineLength s.maxLineLength path source]
    exact congrArg _ (filter_findings_defaultRules (r := lineLength s.maxLineLength)
      (by simp [allRules]) hallows path source)
  · rw [← lines_trailingWhitespace path source]
    exact congrArg _ (filter_findings_defaultRules (r := trailingWhitespace)
      (by simp [allRules]) hallows path source)

/-- Of two lines the first ends in white space. -/
theorem lint_findings_blank :
    1 ≤ (Settings.mk 80 none (.names [])).maxLineLength ∧
    ((lint (defaultRules (.mk 80 none (.names []))) "f" "a \nb").findings.filter
      (·.rule = "trailing-whitespace")).map (·.line) = [1] := by
  obtain ⟨-, -, hblank, -⟩ := lint_findings (.mk 80 none (.names [])) (by decide) "f" "a \nb"
  exact ⟨by decide, (hblank (by decide)).trans (by decide +kernel)⟩

end MiniApp.Lint
