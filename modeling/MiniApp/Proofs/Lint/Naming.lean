import MiniApp.Proofs.Grammar.Antecedents
import MiniApp.Proofs.Grammar.FirstTokens
import MiniApp.Proofs.Lint.Declarations

/-!
# The naming rule and the parser

The rule about names reads lines and knows nothing of tokens, so a keyword in a comment or a string
could lead it astray. In a program that is accepted it does not: what stands before a declaration
there ends in a blank, a comment, a sign or the word that closes a body section, and none of these
can make the rule take the keyword of the declaration for a name. So every declared name that stands
on the line of its keyword, and has a hyphen, is reported once at the place of its token.

## Main definitions

* `Stmt.Names`: the keyword, the name and the place of a declaration

## Main results

* `Lint.free_of_splits`: what stands before a declaration is free
* `Lint.namingConvention_finds_declared`: a declared name with a hyphen is found once
-/

namespace MiniApp

open Grammar Lexical

/-- The statement declares a name behind a keyword, and stands at a place. -/
inductive Stmt.Names : Stmt → String → String → Position → Prop
  | declare {pos : Position} {kind : DeclarationKind} {name : String} {init : Option Expr} :
      Names (.declare pos kind name init) kind.keyword name pos
  | func {pos : Position} {name : String} {params : List String} {body : Block} :
      Names (.func pos name params body) "func" name pos

namespace Lint

variable {c : Char} {cs rest value : List Char} {x : Part} {k : TokenKind} {ps qs : List Part}
variable {keyword name : String} {pos : Position} {s : Stmt}

/-! ## What stands before a declaration -/

/-- The signs that a declaration may stand behind, and the end of a comment. -/
def closers : List Char := [';', '\x7b', '\x7d', '(', ')', '/']

/-- A declaration stands behind a sign, or behind the word that closes a body section. -/
theorem text_of_admits (hk : k.admits = true) (h : Lexeme k value) :
    (∃ e ∈ closers, value = [e]) ∨ k = .body ∧ value = "body".toList := by
  have hspelled : k.spelling? ∈ closers.map (some <| String.singleton ·) ∨
      k = .body ∧ k.spelling? = some "body" := by
    revert hk
    cases k <;> decide
  have hvalue {s : String} (hs : k.spelling? = some s) : value = s.toList := by
    rw [← h.spelling hs, String.toList_ofList]
  rcases hspelled with hsign | ⟨hbody, hs⟩
  · obtain ⟨e, he, hs⟩ := List.mem_map.mp hsign
    exact .inl ⟨e, he, by rw [hvalue hs.symm, String.toList_singleton]⟩
  · exact .inr ⟨hbody, hvalue hs⟩

/-- What a declaration may stand behind ends in a blank that is a part of its own, in the last
character of a sign or a comment, or in the word that closes a body section. -/
theorem exists_last_of_longest (h : Longest (x.text ++ c :: cs) x) (hc : c ≠ '\n')
    (hadmits : ∀ k value, x = .lexeme k value → k.admits = true) :
    (∃ e, x = .trivia [e] ∧ isSpace e = true) ∨
    (∃ text, ∃ e ∈ closers, x.text = text ++ [e]) ∨
    x = .lexeme .body "body".toList := by
  have hx := h.heads
  generalize x.text ++ c :: cs = text at hx
  cases hx with
  | trivia htrivia =>
    cases htrivia with
    | blank he => exact .inl ⟨_, rfl, isSpace_of_mem he⟩
    | line _ => exact absurd h.line_stop hc
    | @block ds _ =>
      exact .inr (.inl ⟨'/' :: '*' :: (ds ++ ['*']), '/', by simp [closers], by simp [Part.text]⟩)
  | @lexeme k value _ hl _ =>
    have hk := hadmits k value rfl
    rcases text_of_admits hk hl with ⟨e, he, rfl⟩ | ⟨rfl, rfl⟩
    · refine .inr (.inl ⟨[], e, he, text_lexeme ?_⟩)
      rintro rfl
      cases hk
    · exact .inr (.inr rfl)

/-- Blanks, signs and the end of a comment belong to no word. -/
theorem of_ending (hc : isSpace c = true ∨ c ∈ closers) :
    isWordPart c = false ∧ Text.isWordChar c = false ∧ c ∉ ['c', 't'] := by
  have hall : ([' ', '\t', '\r', '\n'] ++ closers).all
      (fun c => !isWordPart c && !Text.isWordChar c && c ∉ ['c', 't']) = true := by decide +kernel
  have hc := List.all_eq_true.mp hall c (List.mem_append.mpr (hc.imp_left isSpace_cases))
  simpa [and_assoc] using hc

theorem not_isBlank_of_mem_closers (hc : c ∈ closers) : Text.isBlank c = false := by
  have hall : closers.all (!Text.isBlank ·) = true := by decide
  simpa using List.all_eq_true.mp hall c hc

/-- The last of the parts that lead up to a declaration, if it is a lexeme. -/
theorem admits_of_placed_concat (h : ∀ t ∈ (placed [] (ps ++ [x])).getLast?, t.kind.admits = true)
    (k : TokenKind) (value : List Char) (hx : x = .lexeme k value) : k.admits = true := by
  subst hx
  exact h _ (by rw [placed_append, placed, placed, List.getLast?_concat]; rfl)

theorem clear_of_splits (h : Splits (texts ps ++ c :: cs) (ps ++ qs) rest) (hc : c ≠ '\n')
    (hadmits : ∀ t ∈ (placed [] ps).getLast?, t.kind.admits = true) : Clear (texts ps) := by
  -- from the last part backwards, as long as the parts are blanks
  induction ps using List.reverseRecOn generalizing c cs qs with
  | nil => exact clear_nil
  | append_singleton ps x ih =>
    obtain ⟨hx, hps⟩ := h.of_concat
    rw [texts_concat]
    rcases exists_last_of_longest hx hc (admits_of_placed_concat hadmits) with
      ⟨e, rfl, he⟩ | ⟨text, e, he, htext⟩ | rfl
    · -- a line feed ends what a keyword begins; behind another blank the text before it counts
      have hletters := (of_ending (.inl he)).2.2
      exact .concat (fun _ hfeed => ih hps hfeed (by simpa [placed_append, placed] using hadmits))
        hletters
    · have hletters := (of_ending (.inr he)).2.2
      rw [htext, ← List.append_assoc]
      exact .concat (fun h => by simp [not_isBlank_of_mem_closers he] at h) hletters
    · have hbody : texts ps ++ (Part.lexeme .body "body".toList).text =
          texts ps ++ ['b', 'o', 'd'] ++ ['y'] := by
        rw [List.append_assoc]
        rfl
      rw [hbody]
      exact .concat (fun h => absurd h (by decide)) (by decide)

/-- What stands before a declaration is free. -/
theorem free_of_splits (h : Splits (texts ps ++ c :: cs) (ps ++ qs) rest)
    (hc : isWordStart c = true)
    (hadmits : ∀ t ∈ (placed [] ps).getLast?, t.kind.admits = true) : Free (texts ps) := by
  have hfeed : c ≠ '\n' := by
    rintro rfl
    cases hc
  refine ⟨clear_of_splits h hfeed hadmits, fun e he => ?_⟩
  rcases List.eq_nil_or_concat' ps with rfl | ⟨ps, x, rfl⟩
  · cases he
  obtain ⟨hx, -⟩ := h.of_concat
  rw [texts_concat] at he
  rcases exists_last_of_longest hx hfeed (admits_of_placed_concat hadmits) with
    ⟨b, rfl, hb⟩ | ⟨text, b, hb, htext⟩ | rfl
  · obtain ⟨hpart, hword, -⟩ := of_ending (.inl hb)
    obtain rfl : b = e := by simpa [Part.text] using he
    exact ⟨hpart, hword⟩
  · obtain ⟨hpart, hword, -⟩ := of_ending (.inr hb)
    obtain rfl : b = e := by simpa [htext] using he
    exact ⟨hpart, hword⟩
  · -- a word behind a word would be part of it
    have hstop : isWordPart c = false := hx.word_stop rfl
    simp [isWordPart_of_isWordStart hc] at hstop

/-! ## The tokens of a declaration -/

theorem keyword_mem (h : s.Names keyword name pos) : keyword ∈ declaringKeywords := by
  cases h with
  | @declare _ kind _ _ => cases kind <;> decide
  | func => decide

theorem spelling_of_binds {kind : DeclarationKind} (h : Binds k kind) :
    k.declares = true ∧ k.spelling? = some kind.keyword := by
  cases h <;> exact ⟨rfl, rfl⟩

/-- A declaration begins with its keyword and its name, and goes on. -/
theorem exists_tokens_of_names {ts : List Token} (h : DerivesStmt ts s)
    (hnames : s.Names keyword name pos) :
    ∃ k t us, ts = k :: t :: us ∧ us ≠ [] ∧ k.kind.declares = true ∧
      k.kind.spelling? = some keyword ∧ k.pos = pos ∧ t.kind = .identifier ∧ t.text = name := by
  cases hnames with
  | declare =>
    cases h with
    | declare h =>
      cases h with
      | @plain k t u hk ht _ =>
        obtain ⟨hdeclares, hspelling⟩ := spelling_of_binds hk
        exact ⟨k, t, [u], rfl, List.cons_ne_nil u [], hdeclares, hspelling, rfl, ht, rfl⟩
      | @init k t o u _ ts _ hk ht _ _ _ =>
        obtain ⟨hdeclares, hspelling⟩ := spelling_of_binds hk
        exact ⟨k, t, o :: ts ++ [u], rfl, List.cons_ne_nil o _, hdeclares, hspelling, rfl, ht, rfl⟩
  | func =>
    cases h with
    | @func k t ts us _ _ hk ht hps _ =>
      have hne : ts ++ us ≠ [] := by
        cases hps <;> exact List.cons_ne_nil _ _
      exact ⟨k, t, ts ++ us, rfl, hne, by rw [hk]; rfl, by rw [hk]; rfl, rfl, ht, rfl⟩

/-- The keyword of a declaration and the name behind it, as the parts that they stand for. -/
theorem exists_splits_of_declares {path source : String} {tokens us : List Token} {p : Program}
    {t u : Token} (hscan : Token.scan path source = .ok tokens)
    (hderives : DerivesProgram tokens p) (htokens : t :: u :: us <:+: tokens) (hus : us ≠ [])
    (ht : t.kind.declares = true) :
    ∃ ps qs vs, Splits source.toList (ps ++ .lexeme t.kind t.text.toList :: qs) [] ∧
      t.pos = .past (texts ps) ∧ placed (texts ps ++ t.text.toList) qs = u :: vs ∧
      ∀ v ∈ (placed [] ps).getLast?, v.kind.admits = true := by
  obtain ⟨parts, hsplit, rfl⟩ := Token.exists_splits_of_scan hscan
  obtain ⟨xs, ys, hxs⟩ := htokens
  have hne : us ++ ys ≠ [] := List.append_ne_nil_of_left_ne_nil hus ys
  -- the end marker stands behind the declaration
  have hplaced : placed [] parts = xs ++ t :: u :: (us ++ ys).dropLast := by
    have hdrop := congrArg List.dropLast hxs
    rw [List.dropLast_concat] at hdrop
    rw [← hdrop]
    simp [List.dropLast_append_of_ne_nil, hne, List.dropLast_cons_of_ne_nil]
  obtain ⟨c, hdeclaring⟩ := hderives.declaring
  rw [← hxs] at hdeclaring
  simp only [List.append_assoc, List.cons_append] at hdeclaring
  have hlast := hdeclaring.admits ht
  obtain ⟨ps, value, qs, rfl, rfl, hself, hqs⟩ := placed_eq_append_cons hplaced
  have htext : t.text.toList = value := by
    rw [congrArg Token.text hself, String.toList_ofList]
  have hkind : t.kind ≠ .string := fun hkind => by simp [hkind, TokenKind.declares] at ht
  rw [text_lexeme hkind, List.nil_append] at hqs
  refine ⟨ps, qs, _, htext ▸ hsplit, congrArg Token.pos hself, htext ▸ hqs, fun v hv => ?_⟩
  simpa [Option.mem_def.mp hv] using hlast

theorem line_feed_not_mem (h : ∀ c ∈ cs, isWordPart c = true) : '\n' ∉ cs := fun hmem =>
  absurd (h _ hmem) (by decide)

/-- A declaration with blanks of one line in it stands on one line. -/
theorem line_feed_not_mem_declaration {ws : List Char} (hkeyword : keyword ∈ declaringKeywords)
    (hname : Lexeme .identifier name.toList) (hws : ∀ c ∈ ws, c ≠ '\n') :
    '\n' ∉ keyword.toList ++ ws ∧ '\n' ∉ keyword.toList ++ ws ++ name.toList := by
  obtain ⟨-, w, word, htext, hw, hword⟩ := hname.name
  obtain ⟨-, hstart, -⟩ := word_of_keyword hkeyword
  have hheading : '\n' ∉ keyword.toList ++ ws := List.not_mem_append
    (line_feed_not_mem fun c hc => isWordPart_of_isWordStart (hstart c hc))
    fun hmem => hws _ hmem rfl
  refine ⟨hheading, List.not_mem_append hheading (htext ▸ line_feed_not_mem ?_)⟩
  exact List.forall_mem_cons.mpr ⟨isWordPart_of_isWordStart hw, hword⟩

/-- A keyword that stands where a declaration may stand, with blanks and a name behind it: what
stands before it is free, the name is a token of its own, and the three make a declaration. -/
theorem declaration_of_splits {before ws after : List Char} {u : Token} {vs : List Token}
    (h : Splits (before ++ (keyword.toList ++ (ws ++ (u.text.toList ++ after))))
      (ps ++ .lexeme k keyword.toList :: qs) []) (hps : texts ps = before) (hk : k ≠ .string)
    (hkeyword : keyword ∈ declaringKeywords) (hu : Lexeme .identifier u.text.toList)
    (hws : ∀ c ∈ ws, Text.isBlank c = true) (hqs : placed (before ++ keyword.toList) qs = u :: vs)
    (hadmits : ∀ v ∈ (placed [] ps).getLast?, v.kind.admits = true) :
    Free before ∧ u.pos = .past (before ++ (keyword.toList ++ ws)) ∧
      ∃ d, declarationBy? keyword
          (keyword.toList ++ (ws ++ (u.text.toList ++ after.takeWhile (· != '\n')))) = some d ∧
        d.keyword = keyword ∧ d.name = u.text ∧ d.offset = keyword.length + ws.length := by
  subst hps
  obtain ⟨hne, hstart, -⟩ := word_of_keyword hkeyword
  obtain ⟨e, es, htext⟩ := List.exists_cons_of_ne_nil hne
  have he : isWordStart e = true := hstart e (by simp [htext])
  obtain ⟨-, w, word, hname, hw, hword⟩ := hu.name
  -- the part of the keyword, and the parts behind it
  obtain ⟨ds, hds, hlongest, hsplit⟩ := h.of_append_cons
  have hds := List.append_cancel_left hds
  rw [text_lexeme hk] at hds hlongest
  obtain rfl := List.append_cancel_left hds
  rw [hname] at hsplit hlongest h ⊢
  have hblanks : ws ≠ [] := by
    rintro rfl
    rw [htext] at hlongest
    have hstop : isWordPart w = false := hlongest.word_stop he
    simp [isWordPart_of_isWordStart hw] at hstop
  obtain ⟨hpos, hwhole⟩ := hsplit.first_token hws hw hqs
  rw [hname] at hwhole
  have hstop : ∀ c ∈ (after.takeWhile (· != '\n')).head?, isWordPart c = false := by
    intro c hc
    cases after with
    | nil => cases hc
    | cons b after =>
      have hb : isWordPart b = false := stop_of_takeWhile (List.cons.inj hwhole).2.symm
      rw [List.takeWhile_cons] at hc
      split at hc
      · obtain rfl : b = c := by simpa using hc
        exact hb
      · cases hc
  refine ⟨?_, by rw [hpos, List.append_assoc], _, declarationBy?_eq_some_iff.mpr
    ⟨ws, w, word, _, rfl, hblanks, hws, hw, hword, hstop, rfl⟩, rfl, ?_, rfl⟩
  · rw [htext] at h
    exact free_of_splits h he hadmits
  · rw [← hname, String.ofList_toList]

/-! ## The rule -/

/-- What the rule finds in a line. -/
def hyphenatedIn (x : String × Nat) : List Finding :=
  ((declarations 0 none 0 x.1.toList).filter fun (d, _) => d.name.toList.contains '-').map
    fun (d, index) => hyphenated x.2 d index

theorem namingConvention_checkAll (source : String) : namingConvention.checkAll source =
    .ok ((numberedLines source).flatMap hyphenatedIn) := rfl

theorem line_of_mem_hyphenatedIn {x : String × Nat} {f : Finding} (h : f ∈ hyphenatedIn x) :
    f.line = x.2 := by
  obtain ⟨_, _, rfl⟩ := List.mem_map.mp h
  rfl

/-- The declaration behind a free text is the only one with a hyphen that is found in its place. -/
theorem filter_hyphenatedIn {pre post : List Char} {d : Declaration} (h : Free pre)
    (hline : '\n' ∉ pre) (hkeyword : keyword ∈ declaringKeywords)
    (hd : declarationBy? keyword post = some d) (hhyphen : '-' ∈ d.name.toList) (n : Nat) :
    (hyphenatedIn (String.ofList (pre ++ post), n)).filter
        (fun f : Finding => f.column = ((pre.length + d.offset : Nat) : Int) + 1) =
      [hyphenated n d (pre.length + d.offset)] := by
  have hplace :
      ((fun f : Finding => decide (f.column = ((pre.length + d.offset : Nat) : Int) + 1)) ∘
        fun x : Declaration × Nat => hyphenated n x.1 x.2) =
      fun x => decide (x.2 = pre.length + d.offset) := by
    funext x
    simp only [Function.comp_apply, hyphenated, decide_eq_decide]
    omega
  calc _ = (((declarations 0 none 0 (pre ++ post)).filter (·.1.name.toList.contains '-')).filter
        (·.2 = pre.length + d.offset)).map fun x => hyphenated n x.1 x.2 := by
        rw [← hplace, ← List.filter_map, hyphenatedIn, String.toList_ofList]
    _ = ([(d, pre.length + d.offset)].filter (·.1.name.toList.contains '-')).map fun x =>
        hyphenated n x.1 x.2 := by
        rw [List.filter_comm, filter_declarations h hline hkeyword hd]
    _ = [hyphenated n d (pre.length + d.offset)] := by
        simp [hhyphen]

/-- The rule on a whole text: a declaration behind something free is found once in its place. -/
theorem filter_checkAll {source : String} {before line after : List Char} {d : Declaration}
    (hsource : source.toList = before ++ (line ++ after)) (hfree : Free before)
    (hline : '\n' ∉ line) (hkeyword : keyword ∈ declaringKeywords)
    (hd : declarationBy? keyword (line ++ after.takeWhile (· != '\n')) = some d)
    (hhyphen : '-' ∈ d.name.toList) :
    ∃ found, namingConvention.checkAll source = .ok found ∧
      found.filter (fun f : Finding => f.line = (Position.past before).line ∧
        f.column = ((Position.past before).column + d.offset : Nat)) =
      [hyphenated (Position.past before).line d ((Text.lastLine before).length + d.offset)] := by
  obtain ⟨above, below, hlines, hlength⟩ := Text.exists_splitLines_append hline before after
  refine ⟨_, namingConvention_checkAll source, ?_⟩
  have hnumber : (Position.past before).line = 1 + (above.map String.ofList).length := by
    rw [List.length_map, hlength]
    rfl
  have hcolumn : (Position.past before).column + d.offset =
      (Text.lastLine before).length + d.offset + 1 := by
    simp only [Position.past, Text.lastLine, List.length_reverse]
    omega
  have hpre : Free (Text.lastLine before) := hfree.suffix (Text.lastLine_suffix before)
  calc _ = (((numberedLines source).flatMap hyphenatedIn).filter
          (·.line = (Position.past before).line)).filter
        (fun f : Finding => f.column = ((Position.past before).column + d.offset : Nat)) := by
        rw [List.filter_filter]
        simp [Bool.and_comm]
    _ = (hyphenatedIn (String.ofList (Text.lastLine before ++
          (line ++ after.takeWhile (· != '\n'))), (Position.past before).line)).filter
        (fun f : Finding => f.column = ((Position.past before).column + d.offset : Nat)) := by
        -- the findings of a line bear its number, so only the line of the declaration is left
        rw [numberedLines, Text.lines, hsource, hlines, List.map_append, List.map_cons, hnumber,
          filter_flatMap_zipIdx fun x y hy => line_of_mem_hyphenatedIn hy]
    _ = _ := by
        rw [hcolumn]
        exact filter_hyphenatedIn hpre (Text.not_mem_lastLine before) hkeyword hd hhyphen _

/-- In a program that is accepted, the rule finds every declared name with a hyphen that only white
space sets apart from its keyword, on the same line: it reports this name once, by that keyword, at
the line and the column of the name's token. -/
theorem namingConvention_finds_declared {allowance : Nat} {path source : String} {p : Program}
    (hparse : Program.parseWithin allowance path source = .ok p) {layers : List Layer}
    (hoccurs : Occurs p layers (.stmt s)) (hnames : s.Names keyword name pos)
    (hhyphen : '-' ∈ name.toList) {before ws after : List Char} (hpos : pos = .past before)
    (hsource : source.toList = before ++ (keyword.toList ++ (ws ++ (name.toList ++ after))))
    (hws : ∀ c ∈ ws, Text.isBlank c = true ∧ c ≠ '\n') :
    ∃ tokens t u found f, Token.scan path source = .ok tokens ∧ [t, u] <:+: tokens ∧
      t.text = keyword ∧ t.pos = pos ∧ u.kind = .identifier ∧ u.text = name ∧
      namingConvention.checkAll source = .ok found ∧
      found.filter (fun f : Finding => f.line = u.pos.line ∧ f.column = u.pos.column) = [f] ∧
      f.rule = "homy-naming-convention" ∧
      f.message = keyword ++ " name '" ++ name ++ "' should use camelCase or snake_case" := by
  obtain ⟨tokens, hscan, hparse⟩ := Program.exists_tokens_of_parseWithin hparse
  have hscanned := Token.scanned_scan hscan
  have hderives := Program.derives_of_parseTokensWithin hscanned hparse
  obtain ⟨_, hbelow, _⟩ := hoccurs
  obtain ⟨ts, hts, hstmt⟩ := hbelow.within (n := .program p) hderives
  obtain ⟨t, u, us, rfl, hus, hdeclares, hspelling, rfl, hu, rfl⟩ :=
    exists_tokens_of_names hstmt hnames
  obtain ⟨ps, qs, vs, hsplit, htpos, hqs, hadmits⟩ :=
    exists_splits_of_declares hscan hderives hts hus hdeclares
  have htlexed : t.Lexed := hscanned.lexed_of_mem (hts.subset (by simp)) fun hkind => by
    simp [hkind, TokenKind.declares] at hdeclares
  have hulexed : u.Lexed := hscanned.lexed_of_mem (hts.subset (by simp)) fun hkind => by
    simp [hkind] at hu
  obtain rfl := htlexed.text_eq hspelling
  have hkeyword := keyword_mem hnames
  have hkind : t.kind ≠ .string := fun hkind => by simp [hkind, TokenKind.declares] at hdeclares
  -- the characters before the keyword are those before its place
  obtain ⟨ds, hds, -⟩ := hsplit.of_append_cons
  have hbefore : texts ps = before :=
    Position.past_inj ⟨_, hds.symm⟩ ⟨_, hsource.symm⟩ (htpos.symm.trans hpos)
  rw [hsource] at hsplit
  rw [hbefore] at hqs
  obtain ⟨hfree, hupos, d, hd, hdkeyword, hdname, hoffset⟩ := declaration_of_splits hsplit hbefore
    hkind hkeyword (hulexed.lexeme hu) (fun c hc => (hws c hc).1) hqs hadmits
  -- the rule finds the declaration in its line
  obtain ⟨hheading, hline⟩ :=
    line_feed_not_mem_declaration hkeyword (hulexed.lexeme hu) fun c hc => (hws c hc).2
  obtain ⟨found, hfound, hfilter⟩ := filter_checkAll (d := d) (by simpa using hsource) hfree hline
    hkeyword (by simpa using hd) (hdname ▸ hhyphen)
  have hplace : u.pos.line = (Position.past before).line ∧
      u.pos.column = (Position.past before).column + d.offset := by
    rw [hupos, Position.past_append hheading, hoffset, List.length_append, String.length_toList]
    exact ⟨rfl, rfl⟩
  rw [← hplace.1, ← hplace.2] at hfilter
  refine ⟨tokens, t, u, found, _, hscan, ?_, rfl, rfl, hu, rfl, hfound, hfilter, rfl, ?_⟩
  · exact (List.prefix_append [t, u] us).isInfix.trans hts
  · rw [hyphenated, hdkeyword, hdname]

/-- The name behind a string that reads like a declaration on the same line. -/
theorem namingConvention_finds_declared_behind_string :
    ∃ p tokens t u found f, Program.parseWithin 100 "" "\"let x-y\"; let a-b;" = .ok p ∧
      Token.scan "" "\"let x-y\"; let a-b;" = .ok tokens ∧ [t, u] <:+: tokens ∧ t.pos = ⟨1, 12⟩ ∧
      u.text = "a-b" ∧ namingConvention.checkAll "\"let x-y\"; let a-b;" = .ok found ∧
      found.filter (fun f : Finding => f.line = u.pos.line ∧ f.column = u.pos.column) = [f] ∧
      f.message = "let name 'a-b' should use camelCase or snake_case" := by
  let s : Stmt := .declare ⟨1, 12⟩ .let "a-b" none
  let p : Program := ⟨⟨1, 1⟩, [.expr ⟨1, 1⟩ (.string ⟨1, 1⟩ "let x-y"), s]⟩
  have hparse : Program.parseWithin 100 "" "\"let x-y\"; let a-b;" = .ok p := by cbv
  have hoccurs : Occurs p _ (.stmt s) :=
    Occurs.root.part (Node.mem_stmtsIn.mpr ⟨rfl, s, List.mem_cons_of_mem _ List.mem_cons_self, rfl⟩)
  have hnames : s.Names "let" "a-b" ⟨1, 12⟩ := @Stmt.Names.declare _ .let _ _
  have hsource : "\"let x-y\"; let a-b;".toList =
      "\"let x-y\"; ".toList ++ ("let".toList ++ ([' '] ++ ("a-b".toList ++ [';']))) := rfl
  have hpos : (⟨1, 12⟩ : Position) = .past "\"let x-y\"; ".toList := by decide
  obtain ⟨tokens, t, u, found, f, hscan, htokens, -, ht, -, hu, hfound, hfilter, -, hmessage⟩ :=
    namingConvention_finds_declared hparse hoccurs hnames (by decide) hpos hsource
      (List.forall_mem_singleton.mpr (by decide))
  exact ⟨p, tokens, t, u, found, f, hparse, hscan, htokens, ht, hu, hfound, hfilter, hmessage⟩

end Lint

end MiniApp
