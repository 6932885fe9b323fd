import MiniApp.Proofs.Grammar.Parts

/-!
# Body sections in body sections

A body section is refused where the next statement of another section's content would begin, and
nowhere else. So no section is among the statements of another one's content, but the braces of a
block or of a function hide one from this check: in a parsed program, every section that lies inside
another one lies in such braces, and a program with one in them is parsed.

## Main definitions

* `Layer.IsBraced`: the layers of blocks and functions
* `Parser.Rejects`: a parser rejects its input with a certain diagnostic
* `Grammar.Reopens`: tokens that come to the keyword of a section in the content of another one

## Main results

* `Node.Below.braced`: a section below a statement that is none lies in braces
* `Parser.rejects_program`: the keyword of a section in the content of another one
* `Program.parse_sections`: what is refused and what is left of nested sections
-/

namespace MiniApp

open Grammar

/-- The layers that braces make: those of blocks and of functions. -/
def Layer.IsBraced : Layer → Prop
  | .block _ | .func _ _ => True
  | _ => False

/-! ## Where sections lie -/

namespace Node

variable {s t : Stmt} {layers further : List Layer}

theorem not_isBody_of_mem_alternate {rest : Else} (ht : t ∈ rest.stmts) : t.isBody = false := by
  cases rest <;> simp only [Else.stmts, List.mem_singleton, List.not_mem_nil] at ht <;>
    subst ht <;> rfl

theorem not_isBody_of_mem_init {init : ForInit} (ht : t ∈ init.stmts) : t.isBody = false := by
  cases init <;> simp only [ForInit.stmts, List.mem_singleton, List.not_mem_nil] at ht <;>
    subst ht <;> rfl

/-- A section directly below a derived statement is in the braces of a block or of a function. -/
theorem braced_of_part (hs : Derivable s) (ht : (further, .stmt t) ∈ partsOfStmt s)
    (hbody : t.isBody = true) : ∃ l ∈ further, l.IsBraced := by
  cases s with
  | block b =>
    obtain ⟨rfl, -⟩ := stmt_mem_stmtsIn.mp ht
    exact ⟨_, List.mem_singleton_self _, trivial⟩
  | func pos name parameters b =>
    obtain ⟨rfl, -⟩ := stmt_mem_stmtsIn.mp ht
    exact ⟨_, List.mem_singleton_self _, trivial⟩
  | body pos style content =>
    -- the grammar has no section here
    have hcontent := (List.mem_append.mp ht).resolve_left (by simp)
    obtain ⟨ts, hs⟩ := hs
    cases hs with
    | body _ _ _ _ _ _ _ _ hflat _ _ _ =>
      simp [hflat t (stmt_mem_stmtsIn.mp hcontent).2] at hbody
  -- every other part is a block, an alternative or a clause
  | ifElse pos test b rest =>
    have ht := (List.mem_append.mp ht).resolve_left (by simp)
    rcases List.mem_cons.mp (stmt_mem_stmtsIn.mp ht).2 with rfl | ht
    · cases hbody
    · simp [not_isBody_of_mem_alternate ht] at hbody
  | «while» pos test b =>
    have ht := (List.mem_append.mp ht).resolve_left (by simp)
    obtain rfl := List.mem_singleton.mp (stmt_mem_stmtsIn.mp ht).2
    cases hbody
  | «for» pos init test update b =>
    simp only [partsOfStmt, List.mem_append, stmt_mem_stmtsIn, stmt_not_mem_exprsIn, or_false] at ht
    rcases ht with ⟨-, ht⟩ | ⟨-, ht⟩
    · simp [not_isBody_of_mem_init ht] at hbody
    · obtain rfl := List.mem_singleton.mp ht
      cases hbody
  | _ => simp [partsOfStmt] at ht

/-- A section below a derived statement that is none lies in braces. -/
theorem Below.braced (h : (Node.stmt s).Below layers (.stmt t)) (hs : Derivable s)
    (hflat : s.isBody = false) (hbody : t.isBody = true) : ∃ l ∈ layers, l.IsBraced := by
  generalize hm : Node.stmt t = m at h
  cases h with
  | self =>
    obtain rfl := Node.stmt.inj hm
    simp [hflat] at hbody
  | @part above _ parent _ hparent hk =>
    subst hm
    cases parent with
    | program p =>
      cases hparent with
      | part _ hp => exact absurd hp program_not_mem_parts
    | expr e => simp [parts] at hk
    | stmt u =>
      obtain ⟨l, hl, hbraced⟩ := braced_of_part (hparent.derived hs) hk hbody
      exact ⟨l, List.mem_append_left _ hl, hbraced⟩

end Node

/-! ## Where sections are refused -/

namespace Parser

variable {α β : Type} {stop n : Token} {input mid rest ts us : List Token} {d : Diagnostic}

/-- `Rejects stop p input d`: with the tokens `input` to be read, the parser `p` rejects them with the
diagnostic `d`, or its allowance does not suffice. -/
def Rejects (stop : Token) (p : Parser α) (input : List Token) (d : Diagnostic) : Prop :=
  ∀ c : Cursor, c.rest = input → c.stop = stop →
    ∃ e c', p c = .error e c' ∧ (e = .rejected d ∨ ∃ d', e = .nestedTooDeeply d')

namespace Rejects

theorem reject : Rejects stop (Parser.reject d : Parser α) input d :=
  fun c _ _ => ⟨_, c, rfl, .inl rfl⟩

theorem tooDeep : Rejects stop (Parser.tooDeep : Parser α) input d :=
  fun c _ _ => ⟨_, c, rfl, .inr ⟨_, rfl⟩⟩

theorem first {p : Parser α} {q : α → Parser β} (h : Rejects stop p input d) :
    Rejects stop (p >>= q) input d := by
  intro c hrest hstop
  obtain ⟨e, c', heq, he⟩ := h c hrest hstop
  exact ⟨e, c', by rw [Parser.bind_apply, heq], he⟩

theorem next {p : Parser α} {q : α → Parser β} {a : α} (h : Yields stop p input a mid)
    (h' : Rejects stop (q a) mid d) : Rejects stop (p >>= q) input d := by
  intro c hrest hstop
  have hp := h c hrest hstop
  split at hp
  · next b c' heq =>
    obtain ⟨rfl, hrest', hstop'⟩ := hp
    obtain ⟨e, c'', heq', he⟩ := h' c' hrest' hstop'
    exact ⟨e, c'', by rw [Parser.bind_apply, heq]; exact heq', he⟩
  · next e c' heq => exact ⟨e, c', by rw [Parser.bind_apply, heq], .inr hp⟩

end Rejects

/-- A list of statements is rejected if what follows some of them is. -/
theorem rejects_untilDone {done : Parser Bool} {D : List Token → Bool} {item : Parser Stmt}
    {P : Stmt → Prop} (hdone : ∀ input, Yields stop done input (D input) input)
    (hmore : ∀ t us, startsStmt t.kind = true → D (t :: us) = false)
    (hitem : Accepts stop item (fun ts s => DerivesStmt ts s ∧ P s) Separates)
    (hn : startsStmt n.kind = true) (hrejects : Rejects stop item (n :: rest) d) (fuel : Nat)
    {ts : List Token} {ss : List Stmt} (h : DerivesStmts ts ss) (hP : ∀ s ∈ ss, P s)
    (hlexed : ∀ t ∈ ts, t.Lexed) (hfuel : ts.length < fuel) :
    Rejects stop (untilDone done item fuel) (ts ++ n :: rest) d := by
  induction fuel generalizing ts ss with
  | zero => omega
  | succ fuel ih =>
    cases h with
    | nil =>
      refine .next (hdone _) ?_
      rw [List.nil_append, if_neg (by simp [hmore n _ hn])]
      exact .first hrejects
    | @cons us vs s ss hs hss =>
      obtain ⟨t, us', rfl, ht⟩ := hs.starts
      refine .next (hdone _) ?_
      rw [List.append_assoc, List.cons_append, if_neg (by simp [hmore t _ ht])]
      have hbehind : Separates (upcoming stop (vs ++ n :: rest)).kind :=
        separates_upcoming hss (separates_of_starts hn)
      refine .next (hitem (t :: us') s _ ⟨hs, hP s (by simp)⟩ ?_ hbehind) ?_
      · exact fun t ht => hlexed t (List.mem_append_left _ ht)
      refine .first (ih hss ?_ ?_ ?_)
      · exact fun s hs => hP s (List.mem_cons_of_mem _ hs)
      · exact fun t ht => hlexed t (List.mem_append_right _ ht)
      · simp only [List.length_append, List.length_cons] at hfuel
        omega

theorem rejects_bodyItem (keyword : Token) {statement : Parser Stmt} (hn : n.kind = .body) :
    Rejects stop (bodyItem keyword statement) (n :: rest)
      (syntaxError n "Body sections cannot be nested") := by
  refine .next .current ?_
  simp only [upcoming_cons, hn]
  exact .reject

end Parser

namespace Grammar

/-- Tokens that open a body section, with some statements of its content. -/
inductive Opens : List Token → Prop
  | mk {k a o y i t c : Token} {style : Expr} {ts : List Token} {content : List Stmt} :
      k.kind = .body → a.kind = .at → o.kind = .lparen → y.kind = .style → i.kind = .colon →
      DerivesStyle t style → c.kind = .rparen → DerivesStmts ts content →
      (∀ s ∈ content, s.isBody = false) → Opens (k :: a :: o :: y :: i :: t :: c :: ts)

theorem Opens.starts {ts : List Token} (h : Opens ts) : ∃ t us, ts = t :: us ∧ t.kind = .body := by
  cases h with
  | mk hk _ _ _ _ _ _ _ _ => exact ⟨_, _, rfl, hk⟩

/-- `Reopens tokens n`: after some statements, the tokens open a body section, and `n` is the keyword
of another one where the next statement of its content would begin. -/
inductive Reopens : List Token → Token → Prop
  | mk {n : Token} {ts us rest : List Token} {ss : List Stmt} :
      DerivesStmts ts ss → Opens us → n.kind = .body → Reopens (ts ++ us ++ n :: rest) n

/-- The keyword comes before the end marker. -/
theorem Reopens.of_stop {stop n : Token} {ts : List Token} (h : Reopens (ts ++ [stop]) n)
    (hstop : stop.kind = .eof) : Reopens ts n := by
  generalize heq : ts ++ [stop] = tokens at h
  obtain @⟨_, us, vs, rest, ss, hss, hopens, hn⟩ := h
  rcases List.eq_nil_or_concat rest with rfl | ⟨rest, last, rfl⟩
  · -- nothing would be behind the keyword, so it would be the end marker
    obtain ⟨-, hlast⟩ := List.append_inj' heq rfl
    cases List.singleton_inj.mp hlast
    simp [hstop] at hn
  · rw [List.concat_eq_append, ← List.cons_append, ← List.append_assoc] at heq
    obtain ⟨rfl, -⟩ := List.append_inj' heq rfl
    exact .mk hss hopens hn

end Grammar

namespace Parser

variable {stop n : Token} {ts rest : List Token} {allowance : Nat}

theorem rejects_bodyDeclaration {statement : Parser Stmt}
    (hstmt : Accepts stop statement DerivesStmt Separates) (h : Opens ts) (hn : n.kind = .body)
    (hlexed : ∀ t ∈ ts, t.Lexed) : Rejects stop (bodyDeclaration statement) (ts ++ n :: rest)
      (syntaxError n "Body sections cannot be nested") := by
  obtain @⟨k, a, o, y, i, t, c, style, us, content, hk, ha, ho, hy, hi, ht, hc, hcontent, hflat⟩ := h
  simp only [List.cons_append]
  refine .next (.token hk) (.next (.token ha) ?_)
  refine .next (.token ho) (.next (.token hy) ?_)
  refine .next (.token hi) (.next (.expect (t := t) ?_) ?_)
  · cases ht <;> simp [*]
  refine .next (.token hc) (.next .bound (.first ?_))
  refine rejects_untilDone (fun _ => yields_atBodyEnd) (fun _ _ => endsBody_of_starts)
    (accepts_bodyItem hstmt k) ?_ (rejects_bodyItem k hn) _ hcontent hflat ?_ ?_
  · rw [hn]
    rfl
  · exact fun t ht => hlexed t (by simp [ht])
  · rw [List.length_append]
    omega

theorem rejects_statement (h : Opens ts) (hn : n.kind = .body) (hlexed : ∀ t ∈ ts, t.Lexed) :
    Rejects stop (statement allowance) (ts ++ n :: rest)
      (syntaxError n "Body sections cannot be nested") := by
  cases allowance with
  | zero => exact .tooDeep
  | succ allowance =>
    have hbody : Rejects stop (bodyDeclaration (statement allowance)) (ts ++ n :: rest)
        (syntaxError n "Body sections cannot be nested") :=
      rejects_bodyDeclaration (accepts_statement allowance) h hn hlexed
    obtain ⟨k, us, rfl, hk⟩ := h.starts
    rw [statement]
    refine .next .current ?_
    simpa only [List.cons_append, upcoming_cons, hk] using hbody

theorem rejects_program (hlexed : ∀ t ∈ ts, t.Lexed)
    (h : Reopens ts n) :
    Rejects stop (program allowance) ts (syntaxError n "Body sections cannot be nested") := by
  obtain @⟨n, ts, us, rest, ss, hss, hopens, hn⟩ := h
  have hsection : Rejects stop (statement allowance) (us ++ n :: rest) _ :=
    rejects_statement hopens hn fun t ht => hlexed t (by simp [ht])
  -- the open section stands where the statements before it end
  obtain ⟨k, us, rfl, hk⟩ := hopens.starts
  rw [List.append_assoc]
  refine .next .current (.next .bound (.first ?_))
  refine rejects_untilDone (fun _ => .looksAt _) ?_ (accepts_statement allowance).any ?_ hsection _
    hss (by simp) ?_ ?_
  · exact fun t us => not_contains_of_starts (by decide)
  · rw [hk]
    rfl
  · exact fun t ht => hlexed t (by simp [ht])
  · rw [List.length_append]
    omega

end Parser

namespace Program

/-- Scanned tokens that come to the keyword of a section in the content of another one are rejected
there, nesting aside. -/
theorem rejected_of_reopens {allowance : Nat} {file : String} {pos : Position} {tokens : List Token}
    {n : Token} (hscanned : Lexical.Scanned pos tokens) (h : Reopens tokens n) :
    parseTokensWithin allowance file tokens = .error (.rejected
        ((Parser.syntaxError n "Body sections cannot be nested").inFile file)) ∨
      ∃ d, parseTokensWithin allowance file tokens = .error (.nestedTooDeeply d) := by
  obtain ⟨c, hc, hsound, rfl⟩ := Cursor.ofTokens_scanned hscanned
  have hrejects : Parser.Rejects c.stop (Parser.program allowance) c.rest _ :=
    Parser.rejects_program hsound.lexed (h.of_stop hsound.stop)
  obtain ⟨e, c', heq, he⟩ := hrejects c rfl rfl
  have hfails : parseTokensWithin allowance file _ = .error (e.inFile file) :=
    (parseTokensWithin_eq_error_iff hc).mpr ⟨e, c', heq, rfl⟩
  rw [hfails]
  rcases he with rfl | ⟨d, rfl⟩
  · exact .inl rfl
  · exact .inr ⟨_, rfl⟩

/-- Where sections lie in each other. In a program that was parsed, a section inside another one lies
in the braces of a block or of a function there, so none is among the statements of another one's
content. A text that comes to the keyword of a section where the next statement of another one's
content would begin is rejected at this keyword, nesting aside. -/
theorem parse_sections (allowance : Nat) (path source : String) :
    (∀ p, parseWithin allowance path source = .ok p →
      ∀ layers pos style content, Occurs p layers (.stmt (.body pos style content)) →
      ∀ s ∈ content, ∀ below t, (Node.stmt s).Below below (.stmt t) → t.isBody = true →
        ∃ l ∈ below, l.IsBraced) ∧
    (∀ tokens n, Token.scan path source = .ok tokens → Reopens tokens n →
      parseWithin allowance path source = .error (.rejected
          ((Parser.syntaxError n "Body sections cannot be nested").inFile path)) ∨
        ∃ d, parseWithin allowance path source = .error (.nestedTooDeeply d)) := by
  constructor
  · intro p hparse layers pos style content hoccurs s hs below t hbelow hbody
    -- the content is derived, and the rule of sections keeps sections out of it
    obtain ⟨ts, hderives⟩ := hoccurs.derived hparse
    cases hderives with
    | body _ _ _ _ _ _ _ hcontent hflat _ _ _ =>
      exact hbelow.braced (hcontent.derivable s hs) (hflat s hs) hbody
  · intro tokens n hscan hreopens
    have hrejected : parseTokensWithin allowance path tokens = _ ∨ _ :=
      rejected_of_reopens (Token.scanned_scan hscan) hreopens
    simpa [parseWithin, hscan, Except.mapError, Bind.bind, Except.bind] using hrejected

/-- A section in a block of another section is parsed. -/
theorem exists_hidden_section :
    ∃ p layers pos style content s below t,
      parse "" "body@ (style: a) { body@ (style: b) /body } /body" = .ok p ∧
        Occurs p layers (.stmt (.body pos style content)) ∧ s ∈ content ∧
        (Node.stmt s).Below below (.stmt t) ∧ t.isBody = true := by
  let inner : Stmt := .body ⟨1, 20⟩ (.ident ⟨1, 34⟩ "b") []
  let block : Stmt := .block (.mk ⟨1, 18⟩ [inner])
  let outer : Stmt := .body ⟨1, 1⟩ (.ident ⟨1, 15⟩ "a") [block]
  have houter : Occurs ⟨⟨1, 1⟩, [outer]⟩ _ (.stmt outer) :=
    Occurs.root.part (Node.mem_stmtsIn.mpr ⟨rfl, outer, List.mem_singleton_self _, rfl⟩)
  have hinner : (Node.stmt block).Below _ (.stmt inner) :=
    .part .self (Node.mem_stmtsIn.mpr ⟨rfl, inner, List.mem_singleton_self _, rfl⟩)
  refine ⟨_, _, _, _, _, block, _, inner, ?_, houter, List.mem_singleton_self _, hinner, rfl⟩
  cbv

/-- A section in a block of another one, and a section that is refused. -/
theorem parse_sections_block :
    (∃ p layers pos style content s below t,
      parse "" "body@ (style: a) { body@ (style: b) /body } /body" = .ok p ∧
        Occurs p layers (.stmt (.body pos style content)) ∧ s ∈ content ∧
        (Node.stmt s).Below below (.stmt t) ∧ t.isBody = true ∧ ∃ l ∈ below, l.IsBraced) ∧
    (∃ tokens n, Token.scan "" "body@ (style: a) body@ (style: b) /body /body" = .ok tokens ∧
      Reopens tokens n ∧ n.pos = ⟨1, 18⟩ ∧
      (parse "" "body@ (style: a) body@ (style: b) /body /body" = .error (.rejected
          ((Parser.syntaxError n "Body sections cannot be nested").inFile "")) ∨
        ∃ d, parse "" "body@ (style: a) body@ (style: b) /body /body" =
          .error (.nestedTooDeeply d))) := by
  constructor
  · obtain ⟨p, layers, pos, style, content, s, below, t, hparse, houter, hs, hinner, hbody⟩ :=
      exists_hidden_section
    have hbraced := (parse_sections _ "" _).1 p hparse layers pos style content houter s hs below t
      hinner hbody
    exact ⟨p, layers, pos, style, content, s, below, t, hparse, houter, hs, hinner, hbody, hbraced⟩
  · let opened : List Token := [⟨.body, "body", ⟨1, 1⟩⟩, ⟨.at, "@", ⟨1, 5⟩⟩, ⟨.lparen, "(", ⟨1, 7⟩⟩,
      ⟨.style, "style", ⟨1, 8⟩⟩, ⟨.colon, ":", ⟨1, 13⟩⟩, ⟨.identifier, "a", ⟨1, 15⟩⟩,
      ⟨.rparen, ")", ⟨1, 16⟩⟩]
    let again : Token := ⟨.body, "body", ⟨1, 18⟩⟩
    have hscan : ∃ rest, Token.scan "" "body@ (style: a) body@ (style: b) /body /body" =
        .ok (opened ++ again :: rest) := ⟨_, by cbv⟩
    obtain ⟨rest, hscan⟩ := hscan
    have hreopens : Reopens (opened ++ again :: rest) again :=
      .mk .nil (.mk rfl rfl rfl rfl rfl (.ident rfl) rfl .nil (by simp)) rfl
    exact ⟨_, again, hscan, hreopens, rfl, (parse_sections _ "" _).2 _ again hscan hreopens⟩

/-- Sections lie inside other ones. -/
theorem parse_sections_nested :
    ¬ ∀ source p, parse "" source = .ok p →
      ∀ layers pos style content, Occurs p layers (.stmt (.body pos style content)) →
      ∀ s ∈ content, ∀ below t, (Node.stmt s).Below below (.stmt t) → t.isBody = false := by
  obtain ⟨p, layers, pos, style, content, s, below, t, hparse, houter, hs, hinner, hbody⟩ :=
    exists_hidden_section
  intro h
  have hnone := h _ p hparse layers pos style content houter s hs below t hinner
  simp [hbody] at hnone

end Program

end MiniApp
