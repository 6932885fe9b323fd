import MiniApp.Proofs.Grammar
import MiniApp.Proofs.Lexeme
import MiniApp.Proofs.Places
import MiniApp.Syntax.Parse

/-!
# What a parser reads

The calculus in which parsers are related to the grammar. A parser is followed from a fixed cursor
on, and what it has read since is kept as a list of tokens, so that a chain of parsers is followed
by adding to that list. The same calculus says how a parser may fail: by a syntactic diagnostic at the
place of a token, by nesting that its allowance does not cover, or on a numeral that cannot be read.

An allowance is measured against the tokens still to come. A level of nesting spends at most three
units for every token it reads, so three units a token and four more always suffice.

## Main definitions

* `Cursor.Reads`: one cursor is another one after some tokens have been read
* `Parser.Refusal`: the ways in which a parser may fail
* `Parser.After`, `Parser.Meets`: what a parser makes of a list of tokens
-/

namespace MiniApp

/-- Diagnostics of the syntactic family. -/
def Diagnostic.IsSyntactic (d : Diagnostic) : Prop := ∃ e, Trouble.syntactic e ∈ d.trouble.lineage

theorem Diagnostic.isSyntactic_of_family {pos : Position} {trouble : Trouble} {message : String}
    {e : Expectation} (h : trouble.family? = some (.syntactic e)) :
    (Diagnostic.located pos trouble message).IsSyntactic :=
  ⟨e, by simp [located, Trouble.lineage, h]⟩

/-- A syntactic diagnostic recalls no declaration. -/
theorem Diagnostic.IsSyntactic.recalls_eq_false {d : Diagnostic} (h : d.IsSyntactic) :
    d.trouble.recalls = false := by
  obtain ⟨e, he⟩ := h
  generalize d.trouble = trouble at he ⊢
  cases trouble with
  | duplicateDeclaration _ _ _ | constReassignment _ _ _ | duplicateProperty _ =>
    simp [Trouble.lineage, Trouble.family?] at he
  | _ => rfl

/-- A number token whose text cannot be read as a number, by reason of a given fault. -/
def Token.Unreadable (t : Token) (f : Fault) : Prop :=
  t.kind = .number ∧ Number.read t.text = .error f

namespace Cursor

/-- A cursor over tokens of a text: lexemes up to the end marker. -/
structure Sound (c : Cursor) : Prop where
  stop : c.stop.kind = .eof
  lexed : ∀ t ∈ c.rest, t.Lexed

/-- `c.Reads ts c'`: the cursor `c'` is `c` after the tokens `ts` have been read. -/
def Reads (c : Cursor) (ts : List Token) (c' : Cursor) : Prop :=
  c.rest = ts ++ c'.rest ∧ c'.stop = c.stop

variable {c c' c'' : Cursor} {ts us : List Token}

theorem Reads.refl (c : Cursor) : c.Reads [] c := ⟨rfl, rfl⟩

theorem Reads.trans (h : c.Reads ts c') (h' : c'.Reads us c'') : c.Reads (ts ++ us) c'' :=
  ⟨by rw [h.1, h'.1, List.append_assoc], h'.2.trans h.2⟩

theorem Reads.sound (h : c.Reads ts c') (hc : c.Sound) : c'.Sound :=
  ⟨h.2 ▸ hc.stop, fun t ht => hc.lexed t (h.1 ▸ List.mem_append_right _ ht)⟩

theorem Reads.length (h : c.Reads ts c') : c.rest.length = ts.length + c'.rest.length := by
  rw [h.1, List.length_append]

/-- The token that comes next after some tokens have been read. -/
def ahead (c : Cursor) (ts : List Token) : Token := (c.rest.drop ts.length).head?.getD c.stop

theorem Reads.rest_eq (h : c.Reads ts c') : c'.rest = c.rest.drop ts.length := by
  rw [h.1, List.drop_left]

theorem Reads.current_eq (h : c.Reads ts c') : c'.current = c.ahead ts := by
  rw [Cursor.current, ahead, h.rest_eq, h.2]

/-- The places of the tokens to come, the end marker included. -/
def places (c : Cursor) : List Position := (c.rest ++ [c.stop]).map Token.pos

theorem Reads.places_subset (h : c.Reads ts c') : c'.places ⊆ c.places := by
  rw [places, places, h.1, h.2, List.append_assoc]
  exact List.map_subset _ (List.subset_append_right _ _)

theorem ahead_pos_mem (c : Cursor) (ts : List Token) : (c.ahead ts).pos ∈ c.places := by
  apply List.mem_map_of_mem
  rw [ahead]
  cases hd : c.rest.drop ts.length with
  | nil => exact List.mem_append_right _ (List.mem_singleton_self _)
  | cons t rest =>
    apply List.mem_append_left
    apply List.mem_of_mem_drop (i := ts.length)
    simp [hd]

theorem Sound.ahead_mem (hc : c.Sound) (h : (c.ahead ts).kind ≠ .eof) : c.ahead ts ∈ c.rest := by
  rw [ahead] at h ⊢
  cases hd : c.rest.drop ts.length with
  | nil => exact absurd hc.stop (by simpa [hd] using h)
  | cons t rest =>
    apply List.mem_of_mem_drop (i := ts.length)
    simp [hd]

end Cursor

namespace Parser

open Cursor (Reads)

variable {α β : Type} {room : Nat} {c : Cursor} {pre ts : List Token}

/-- How parsing from a cursor may fail: by a syntactic diagnostic, by nesting for which the tokens
are too many for the room given, or on a numeral that cannot be read. A diagnostic points to one of
the tokens. -/
def Refusal (room : Nat) (c : Cursor) : ParseFailure → Prop
  | .rejected d => d.IsSyntactic ∧ d.PointsInto (· ∈ c.places)
  | .nestedTooDeeply d => room < 3 * c.rest.length + 4 ∧ d.PointsInto (· ∈ c.places)
  | .fault f => ∃ t ∈ c.rest, t.Unreadable f

/-- A refusal after some tokens have been read is one from the start; each of these tokens is worth
three units of room. -/
theorem Refusal.of_reads {r : Nat} {c' : Cursor} {e : ParseFailure} (h : Refusal r c' e)
    (hreads : c.Reads ts c') (hroom : room ≤ r + 3 * ts.length) : Refusal room c e := by
  have hlen := hreads.length
  cases e with
  | rejected d => exact ⟨h.1, h.2.mono fun _ hpos => hreads.places_subset hpos⟩
  | nestedTooDeeply d =>
    obtain ⟨hdeep, hpoints⟩ := h
    exact ⟨by omega, hpoints.mono fun _ hpos => hreads.places_subset hpos⟩
  | fault f =>
    obtain ⟨t, ht, hbad⟩ := h
    exact ⟨t, hreads.1 ▸ List.mem_append_right _ ht, hbad⟩

/-- `After room c p pre Q`: once the tokens `pre` have been read from the cursor `c` on, the parser
`p` reads some more tokens and gives a result that `Q` relates to all tokens read, or it refuses. -/
def After (room : Nat) (c : Cursor) (p : Parser α) (pre : List Token)
    (Q : List Token → α → Prop) : Prop :=
  c.Sound → ∀ c', c.Reads pre c' →
    match p c' with
    | .ok a c'' => ∃ ts, c.Reads (pre ++ ts) c'' ∧ Q (pre ++ ts) a
    | .error e _ => Refusal room c e

/-- `Meets room p G`: whatever the parser `p` reads, the grammar `G` relates to its result. -/
def Meets (room : Nat) (p : Parser α) (G : List Token → α → Prop) : Prop :=
  ∀ c, After room c p [] G

/-- A grammar may be met with nothing more asked of the results. -/
theorem Meets.any {p : Parser α} {G : List Token → α → Prop} (h : Meets room p G) :
    Meets room p fun ts a => G ts a ∧ True := by
  simpa using h

theorem Meets.mono {r : Nat} {p : Parser α} {G : List Token → α → Prop} (h : Meets r p G)
    (hroom : room ≤ r) : Meets room p G := by
  intro c hc c' hreads
  have hp := h c hc c' hreads
  split at hp
  · exact hp
  · exact hp.of_reads (.refl c) (by simpa using hroom)

namespace After

variable {Q : List Token → α → Prop} {R : List Token → β → Prop}

protected theorem pure {a : α} (h : Q pre a) : After room c (pure a) pre Q :=
  fun _ _ hreads => ⟨[], by simpa using hreads, by simpa using h⟩

theorem bind {p : Parser α} {q : α → Parser β}
    (h : After room c p pre fun ts a => After room c (q a) ts R) :
    After room c (p >>= q) pre R := by
  intro hc c' hreads
  have hp := h hc c' hreads
  rw [Parser.bind_apply]
  generalize p c' = result at hp ⊢
  cases result with
  | ok a c'' =>
    obtain ⟨ts, hreads', hq⟩ := hp
    -- the second parser goes on where the first one stopped, still counted from the same cursor
    have hq := hq hc c'' hreads'
    dsimp only
    generalize q a c'' = result at hq ⊢
    cases result with
    | ok b c₃ =>
      obtain ⟨us, hreads'', hr⟩ := hq
      exact ⟨ts ++ us, by rwa [← List.append_assoc], by rwa [← List.append_assoc]⟩
    | error e c₃ => exact hq
  | error e c'' => exact hp

theorem mono {p : Parser α} {Q' : List Token → α → Prop} (h : After room c p pre Q)
    (himp : ∀ ts a, pre ++ ts <+: c.rest → Q (pre ++ ts) a → Q' (pre ++ ts) a) :
    After room c p pre Q' := by
  intro hc c' hreads
  have hp := h hc c' hreads
  split at hp
  · obtain ⟨ts, hreads', hq⟩ := hp
    exact ⟨ts, hreads', himp ts _ ⟨_, hreads'.1.symm⟩ hq⟩
  · exact hp

/-- Follow a parser that meets a grammar. -/
theorem of_meets {r : Nat} {p : Parser α} {G : List Token → α → Prop} (h : Meets r p G)
    (hroom : room ≤ r + 3 * pre.length) (hQ : ∀ ts a, G ts a → Q (pre ++ ts) a) :
    After room c p pre Q := by
  intro hc c' hreads
  have hp := h c' (hreads.sound hc) c' (.refl c')
  split at hp
  · obtain ⟨ts, hreads', hg⟩ := hp
    exact ⟨ts, hreads.trans hreads', hQ ts _ hg⟩
  · exact hp.of_reads hreads hroom

/-- What has been read are the first tokens of the cursor. -/
theorem of_read {p : Parser α} (h : pre <+: c.rest → After room c p pre Q) :
    After room c p pre Q := by
  intro hc c' hreads
  exact h ⟨c'.rest, hreads.1.symm⟩ hc c' hreads

theorem current {R : List Token → Token → Prop} (h : R pre (c.ahead pre)) :
    After room c Parser.current pre R := by
  intro hc c' hreads
  refine ⟨[], by simpa using hreads, ?_⟩
  rw [hreads.current_eq]
  simpa using h

theorem looksAt {kinds : List TokenKind} {R : List Token → Bool → Prop}
    (h : R pre (kinds.contains (c.ahead pre).kind)) :
    After room c (Parser.looksAt kinds) pre R := by
  intro hc c' hreads
  refine ⟨[], by simpa using hreads, ?_⟩
  rw [hreads.current_eq]
  simpa using h

theorem bound {R : List Token → Nat → Prop}
    (h : ∀ n, c.rest.length < n + pre.length → R pre n) : After room c Parser.bound pre R := by
  intro hc c' hreads
  refine ⟨[], by simpa using hreads, ?_⟩
  have hlen := hreads.length
  simpa using h _ (by omega)

/-- Reading the token that comes next, if it is not the end marker. -/
theorem advance {R : List Token → Token → Prop} (hne : (c.ahead pre).kind ≠ .eof)
    (h : c.ahead pre ∈ c.rest → (c.ahead pre).Lexed → R (pre ++ [c.ahead pre]) (c.ahead pre)) :
    After room c Parser.advance pre R := by
  intro hc c' hreads
  have hmem := hc.ahead_mem hne
  have hlexed := hc.lexed _ hmem
  rw [← hreads.current_eq] at hne h hlexed hmem
  obtain ⟨previous, rest, stop⟩ := c'
  cases rest with
  | nil =>
    -- at the end the marker itself would come next
    have hstop : stop = c.stop := hreads.2
    exact absurd (hstop ▸ hc.stop) hne
  | cons t rest =>
    refine ⟨[t], ?_, h hmem hlexed⟩
    exact ⟨by rw [hreads.1]; simp, hreads.2⟩

theorem reject {pos : Position} {trouble : Trouble} {message : String}
    (h : (Diagnostic.located pos trouble message).IsSyntactic) (hpos : pos ∈ c.places) :
    After room c (Parser.reject (.located pos trouble message)) pre Q :=
  fun _ _ _ => ⟨h, .plain hpos h.recalls_eq_false⟩

theorem tooDeep (hroom : room < 4) : After room c Parser.tooDeep pre Q := by
  intro _ c' hreads
  refine ⟨by omega, .plain ?_ rfl⟩
  rw [hreads.current_eq]
  exact c.ahead_pos_mem pre

/-- Reading a token of one of some kinds. -/
theorem expect {kinds : List TokenKind} {R : List Token → Token → Prop}
    (hne : kinds.contains .eof = false) (h : ∀ t, t.kind ∈ kinds → t.Lexed → R (pre ++ [t]) t) :
    After room c (Parser.expect kinds) pre R := by
  refine .bind (.looksAt ?_)
  split
  · next hkind =>
    have hmem : (c.ahead pre).kind ∈ kinds := by simpa using hkind
    have heof : .eof ∉ kinds := by simpa using hne
    exact .advance (fun heq => heof (heq ▸ hmem)) fun _ hlexed => h _ hmem hlexed
  · intro _ c' hreads
    refine ⟨Diagnostic.isSyntactic_of_family rfl, .plain ?_ rfl⟩
    rw [hreads.current_eq]
    exact c.ahead_pos_mem pre

/-- Reading a token of one kind. -/
theorem token {kind : TokenKind} {R : List Token → Token → Prop} (hne : (kind == .eof) = false)
    (h : ∀ t, t.kind = kind → R (pre ++ [t]) t) : After room c (Parser.expect [kind]) pre R := by
  refine .expect ?_ fun t ht _ => h t (List.mem_singleton.mp ht)
  simpa using (beq_eq_false_iff_ne.mp hne).symm

theorem consumeIf {kind : TokenKind} {R : List Token → Bool → Prop} (hne : (kind == .eof) = false)
    (hyes : ∀ t, t.kind = kind → R (pre ++ [t]) true) (hno : R pre false) :
    After room c (Parser.consumeIf kind) pre R := by
  refine .bind (.looksAt ?_)
  split
  · next hkind =>
    have heq : (c.ahead pre).kind = kind := by simpa using hkind
    exact .bind (.advance (heq ▸ beq_eq_false_iff_ne.mp hne) fun _ _ => .pure (hyes _ heq))
  · exact .pure hno

end After

end Parser

namespace Program

variable {allowance : Nat} {file : String} {tokens : List Token} {c : Cursor}

/-- Tokens are parsed by the parser of programs at their cursor. -/
theorem parseTokensWithin_eq_ok_iff {p : Program} (hc : Cursor.ofTokens? tokens = some c) :
    parseTokensWithin allowance file tokens = .ok p ↔
      ∃ c', Parser.program allowance c = .ok p c' := by
  simp only [parseTokensWithin, hc]
  cases Parser.program allowance c <;> simp

/-- Tokens are refused where the parser of programs fails at their cursor. -/
theorem parseTokensWithin_eq_error_iff {e : ParseFailure} (hc : Cursor.ofTokens? tokens = some c) :
    parseTokensWithin allowance file tokens = .error e ↔
      ∃ f c', Parser.program allowance c = .error f c' ∧ f.inFile file = e := by
  simp only [parseTokensWithin, hc]
  cases Parser.program allowance c <;> simp

end Program

end MiniApp
